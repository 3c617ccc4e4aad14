import Dcpu16.Machine.Instruction
import Dcpu16.Machine.Memory

/-! Instructions as assembly text.  An extension word is written with four hexadecimal digits and an
embedded literal without leading zeros, so the two can be told apart. -/

namespace Dcpu16

/-- An extension word, with its prefix and four digits. -/
def wordText (w : UInt16) : String := "0x" ++ Text.hex4 w.toNat

/-- An operand whose extension word, if it has one, is `w`. -/
def Operand.text (x : Operand) (w : UInt16) : String :=
  match x with
  | register r => r.name
  | indirect r => s!"[{r.name}]"
  | offset r => s!"[{wordText w}+{r.name}]"
  | pop => "POP"
  | peek => "PEEK"
  | push => "PUSH"
  | sp => "SP"
  | pc => "PC"
  | overflow => "O"
  | nextCell => s!"[{wordText w}]"
  | next => wordText w
  | literal v => "0x" ++ Text.hex v.toNat

/-- An operand as text.  Its extension word comes from `take`; an operand without one takes no
word. -/
def Operand.format {σ : Type} (take : StateM σ UInt16) (x : Operand) : StateM σ String := do
  match x with
  | offset _ | nextCell | next => return x.text (← take)
  | _ => return x.text 0

/-- An instruction as text.  The extension words come from `take`, A's before B's. -/
def Instruction.format {σ : Type} (take : StateM σ UInt16) (i : Instruction) : StateM σ String := do
  let a ← i.a.format take
  let b ← i.b.format take
  return s!"{i.opcode.mnemonic} {a}, {b}"

/-! ### Extension words that are known -/

/-- Takes the first of the words left; a missing word counts as zero. -/
def takeFirst : StateM (List UInt16) UInt16 := do
  let words ← get
  set words.tail
  return words.headD 0

/-- An instruction with its extension words, A's before B's; a missing word counts as zero. -/
def Instruction.text (i : Instruction) (extension : List UInt16) : String :=
  ((i.format takeFirst).run extension).1

theorem Operand.run_format_takeFirst (x : Operand) (words : List UInt16) :
    (x.format takeFirst).run words = (x.text (words.headD 0), words.drop x.extraWords) := by
  cases x with
  | offset | nextCell | next => exact congrArg (Prod.mk _) List.drop_one.symm
  | _ => rfl

theorem Instruction.text_eq (i : Instruction) (extension : List UInt16) :
    i.text extension =
      let a := i.a.text (extension.headD 0)
      let b := i.b.text ((extension.drop i.a.extraWords).headD 0)
      s!"{i.opcode.mnemonic} {a}, {b}" := by
  simp only [text, format, StateT.run_bind, Operand.run_format_takeFirst]
  rfl

/-! ### Instructions at an address -/

/-- Moves to the next address, and takes the word there. -/
def takeNext (fetch : UInt16 → UInt16) : StateM UInt16 UInt16 := do
  modify (· + 1)
  return fetch (← get)

/-- The text of the instruction at an address, and the number of its words. -/
def textAt (fetch : UInt16 → UInt16) (address : UInt16) : String × Nat :=
  let word := fetch address
  match Instruction.decode word with
  | .ok i => (((i.format (takeNext fetch)).run address).1, i.size)
  | .error _ => (s!"DAT {wordText word}", 1)

/-- The text of the instruction at an address of a memory, and the number of its words. -/
def Memory.textAt (m : Memory) (address : UInt16) : String × Nat := Dcpu16.textAt m.read address

/-- The `n` words from an address on, in the order in which the machine takes them. -/
def wordsAt (fetch : UInt16 → UInt16) (address : UInt16) (n : Nat) : List UInt16 :=
  (List.range n).map fun k => fetch (address + .ofNat k)

theorem textAt_pos (fetch : UInt16 → UInt16) (address : UInt16) : 0 < (textAt fetch address).2 := by
  unfold textAt
  dsimp only
  split
  · exact Instruction.size_pos _
  · exact Nat.one_pos

end Dcpu16
