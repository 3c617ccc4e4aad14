import Dcpu16.Text.Radix

/-! The sixteen opcodes, their numbers and their mnemonics. -/

namespace Dcpu16

/-- What an instruction does with its operands. -/
inductive Opcode where
  | nop | set | add | sub | mul | div | mod | shl | shr | and | bor | xor | ife | ifn | ifg | ifb
  deriving DecidableEq, Repr

/-- Why bits are not part of an instruction. -/
inductive DecodeError where
  | invalidOpcode (bits : UInt16)
  | invalidValueCode (code : UInt16)
  deriving DecidableEq, Repr

def DecodeError.message : DecodeError → String
  | invalidOpcode bits => s!"invalid opcode: 0x{Text.hex bits.toNat}"
  | invalidValueCode code => s!"invalid value code: 0x{Text.hex code.toNat}"

namespace Opcode

/-- The opcodes in the order of their numbers. -/
def all : List Opcode :=
  [nop, set, add, sub, mul, div, mod, shl, shr, and, bor, xor, ife, ifn, ifg, ifb]

def bits : Opcode → UInt16
  | nop => 0 | set => 1 | add => 2 | sub => 3 | mul => 4 | div => 5 | mod => 6 | shl => 7
  | shr => 8 | and => 9 | bor => 10 | xor => 11 | ife => 12 | ifn => 13 | ifg => 14 | ifb => 15

/-- The opcode with a number. -/
def ofBits (n : UInt16) : Except DecodeError Opcode :=
  match all[n.toNat]? with
  | some op => .ok op
  | none => .error (.invalidOpcode n)

def mnemonic : Opcode → String
  | nop => "NOP" | set => "SET" | add => "ADD" | sub => "SUB"
  | mul => "MUL" | div => "DIV" | mod => "MOD" | shl => "SHL"
  | shr => "SHR" | and => "AND" | bor => "BOR" | xor => "XOR"
  | ife => "IFE" | ifn => "IFN" | ifg => "IFG" | ifb => "IFB"

/-- The mnemonic with only its first letter in upper case. -/
def title : Opcode → String
  | nop => "Nop" | set => "Set" | add => "Add" | sub => "Sub"
  | mul => "Mul" | div => "Div" | mod => "Mod" | shl => "Shl"
  | shr => "Shr" | and => "And" | bor => "Bor" | xor => "Xor"
  | ife => "Ife" | ifn => "Ifn" | ifg => "Ifg" | ifb => "Ifb"

/-- The opcode of a mnemonic in either case; `RES`, reserved, is another name of `NOP`. -/
def ofMnemonic? (cs : List Char) : Option Opcode :=
  let name := String.ofList (cs.map Char.toUpper)
  if name = "RES" then some nop else all.find? fun op => op.mnemonic = name

/-- The opcodes that set the overflow flag. -/
def affectsOverflow : Opcode → Bool
  | add | sub | mul | div | mod | shl | shr => true
  | _ => false

/-- The opcodes that may skip the word after them. -/
def isConditional : Opcode → Bool
  | ife | ifn | ifg | ifb => true
  | _ => false

@[simp] theorem ofBits_bits (op : Opcode) : ofBits op.bits = .ok op := by cases op <;> rfl

theorem bits_lt (op : Opcode) : op.bits < 16 := by cases op <;> decide

theorem mem_all (op : Opcode) : op ∈ all := by cases op <;> decide

theorem exists_ofBits {n : UInt16} (h : n < 16) : ∃ op, ofBits n = .ok op := by
  have hn : n.toNat < all.length := h
  exact ⟨all[n.toNat], by simp [ofBits, List.getElem?_eq_getElem hn]⟩

end Opcode

end Dcpu16
