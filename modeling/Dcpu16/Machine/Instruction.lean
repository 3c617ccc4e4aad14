import Dcpu16.Machine.Opcode
import Dcpu16.Machine.Register

/-! Instructions and their words.  A word is laid out as `bbbbbbaaaaaaoooo`: four bits of opcode,
then six bits of value code for each of the operands A and B.  An operand whose code names a next
word is followed by that word, A's before B's. -/

namespace Dcpu16

/-- What a value code denotes. -/
inductive Operand where
  /-- A register. -/
  | register (r : Register)
  /-- The cell at the address in a register. -/
  | indirect (r : Register)
  /-- The cell at the next word plus a register. -/
  | offset (r : Register)
  | pop | peek | push
  | sp | pc | overflow
  /-- The cell at the next word. -/
  | nextCell
  /-- The next word itself. -/
  | next
  /-- A value that the code itself holds; only its low five bits are encoded. -/
  | literal (v : UInt16)
  deriving DecidableEq, Repr

namespace Operand

/-- The operand of a value code. -/
def ofCode (code : UInt16) : Except DecodeError Operand :=
  let n := code.toNat
  if n < 0x08 then .ok (register (.ofIndex n))
  else if n < 0x10 then .ok (indirect (.ofIndex (n - 0x08)))
  else if n < 0x18 then .ok (offset (.ofIndex (n - 0x10)))
  else if n = 0x18 then .ok pop
  else if n = 0x19 then .ok peek
  else if n = 0x1a then .ok push
  else if n = 0x1b then .ok sp
  else if n = 0x1c then .ok pc
  else if n = 0x1d then .ok overflow
  else if n = 0x1e then .ok nextCell
  else if n = 0x1f then .ok next
  else if n < 0x40 then .ok (literal (code - 0x20))
  else .error (.invalidValueCode code)

/-- The value code of an operand. -/
def code : Operand → UInt16
  | register r => .ofNat r.index
  | indirect r => 0x08 + .ofNat r.index
  | offset r => 0x10 + .ofNat r.index
  | pop => 0x18
  | peek => 0x19
  | push => 0x1a
  | sp => 0x1b
  | pc => 0x1c
  | overflow => 0x1d
  | nextCell => 0x1e
  | next => 0x1f
  | literal v => 0x20 + (v &&& 0x1f)

/-- The number of words that follow the instruction word for this operand. -/
def extraWords : Operand → Nat
  | offset _ | nextCell | next => 1
  | _ => 0

theorem extraWords_le (x : Operand) : x.extraWords ≤ 1 := by cases x <;> simp [extraWords]

end Operand

/-- An opcode with its two operands. -/
structure Instruction where
  opcode : Opcode
  a : Operand
  b : Operand
  deriving DecidableEq, Repr

namespace Instruction

/-- The number of words of an instruction, its extension words included. -/
def size (i : Instruction) : Nat := 1 + i.a.extraWords + i.b.extraWords

/-- The instruction that a word stands for. -/
def decode (word : UInt16) : Except DecodeError Instruction := do
  let opcode ← Opcode.ofBits (word &&& 0x0F)
  let a ← Operand.ofCode ((word >>> 4) &&& 0x3F)
  let b ← Operand.ofCode ((word >>> 10) &&& 0x3F)
  return { opcode, a, b }

/-- The word of an instruction, without its extension words. -/
def encode (i : Instruction) : UInt16 :=
  i.opcode.bits ||| (i.a.code <<< 4) ||| (i.b.code <<< 10)

theorem size_pos (i : Instruction) : 0 < i.size := by unfold size; omega

theorem size_le (i : Instruction) : i.size ≤ 3 := by
  have := i.a.extraWords_le
  have := i.b.extraWords_le
  simp only [size]
  omega

end Instruction

end Dcpu16
