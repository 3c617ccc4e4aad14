import Dcpu16.Text.Blank

/-! The registers of the machine by name: the eight general ones in their encoding order, and the
program counter, the stack pointer and the overflow flag beside them. -/

namespace Dcpu16

/-- A general register. -/
inductive Register where
  | a | b | c | x | y | z | i | j
  deriving DecidableEq, Repr

/-- Any register that can be named, the special ones included. -/
inductive NamedRegister where
  | general (r : Register)
  | pc | sp | o
  deriving DecidableEq, Repr

namespace Register

/-- The general registers in encoding order. -/
def all : List Register := [.a, .b, .c, .x, .y, .z, .i, .j]

/-- The place of a register in encoding order. -/
def index : Register → Nat
  | a => 0 | b => 1 | c => 2 | x => 3 | y => 4 | z => 5 | i => 6 | j => 7

/-- The register that the low three bits of a number select. -/
def ofIndex (n : Nat) : Register :=
  match n % 8 with
  | 0 => a | 1 => b | 2 => c | 3 => x | 4 => y | 5 => z | 6 => i | _ => j

def name : Register → String
  | a => "A" | b => "B" | c => "C" | x => "X" | y => "Y" | z => "Z" | i => "I" | j => "J"

/-- The register that a text names, in either case and with blanks around it. -/
def ofName? (cs : List Char) : Option Register :=
  match (Text.trim cs).map Char.toUpper with
  | ['A'] => some a | ['B'] => some b | ['C'] => some c | ['X'] => some x
  | ['Y'] => some y | ['Z'] => some z | ['I'] => some i | ['J'] => some j
  | _ => none

@[simp] theorem ofIndex_index (r : Register) : ofIndex r.index = r := by cases r <;> rfl

theorem index_lt (r : Register) : r.index < 8 := by cases r <;> decide

@[simp] theorem index_ofIndex (n : Nat) : (ofIndex n).index = n % 8 := by
  have h : n % 8 < 8 := Nat.mod_lt _ (by decide)
  unfold ofIndex
  generalize n % 8 = k at h ⊢
  match k, h with
  | 0, _ | 1, _ | 2, _ | 3, _ | 4, _ | 5, _ | 6, _ | 7, _ => rfl

theorem mem_all (r : Register) : r ∈ all := by cases r <;> decide

@[simp] theorem ofName?_name (r : Register) : ofName? r.name.toList = some r := by
  cases r <;> decide

end Register

namespace NamedRegister

def name : NamedRegister → String
  | general r => r.name
  | pc => "PC"
  | sp => "SP"
  | o => "O"

/-- The register that a text names, in either case and with blanks around it. -/
def ofName? (cs : List Char) : Option NamedRegister :=
  match (Text.trim cs).map Char.toUpper with
  | ['P', 'C'] => some pc
  | ['S', 'P'] => some sp
  | ['O'] => some o
  | _ => (Register.ofName? cs).map general

@[simp] theorem ofName?_name (r : NamedRegister) : ofName? r.name.toList = some r := by
  cases r with
  | general r => cases r <;> decide
  | _ => decide

end NamedRegister

end Dcpu16
