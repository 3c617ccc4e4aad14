import Dcpu16.Machine.Opcode

/-! What an opcode makes of the values of its operands.  Sums, products and left shifts are taken in
32 bits, where none of them wraps: the word that is written is the low half, and the overflow flag
says whether the high half holds anything.  Division and remainder by zero write zero, and only
division then raises the flag. -/

namespace Dcpu16

/-- What an instruction asks for once its operands are read. -/
inductive Outcome where
  /-- Store a word at operand A, and set the overflow flag if one is given. -/
  | write (value : UInt16) (overflow : Option Bool)
  /-- Step over the next word. -/
  | skip
  | nothing
  deriving DecidableEq, Repr

namespace Outcome

/-- The low half of a wide result, with the flag raised if the result has a high half. -/
def wide (raw : UInt32) : Outcome := write raw.toUInt16 (some (decide (0xFFFF < raw)))

/-- The outcome of an opcode that leaves the overflow flag alone. -/
def plain (v : UInt16) : Outcome := write v none

/-- Skips if the condition fails. -/
def skipUnless (condition : Bool) : Outcome := if condition then nothing else skip

end Outcome

/-- The outcome of an opcode on the values of its operands. -/
def Opcode.outcome (op : Opcode) (a b : UInt16) : Outcome :=
  match op with
  | nop => .nothing
  | set => .plain b
  | add => .wide (a.toUInt32 + b.toUInt32)
  | sub => .write (a - b) (some (decide (a < b)))
  | mul => .wide (a.toUInt32 * b.toUInt32)
  | div => if b = 0 then .write 0 (some true) else .write (a / b) (some false)
  | mod => .write (if b = 0 then 0 else a % b) (some false)
  | shl => if b < 16 then .wide (a.toUInt32 <<< b.toUInt32) else .write 0 (some (a != 0))
  | shr => .write (if b < 16 then a >>> b else 0) (some false)
  | and => .plain (a &&& b)
  | bor => .plain (a ||| b)
  | xor => .plain (a ^^^ b)
  | ife => .skipUnless (a == b)
  | ifn => .skipUnless (a != b)
  | ifg => .skipUnless (decide (b < a))
  | ifb => .skipUnless (a &&& b != 0)

end Dcpu16
