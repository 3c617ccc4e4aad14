import Dcpu16.Disassembly.Text
import Dcpu16.Text.Blank
import Dcpu16.Text.Lines

/-! Program images as text.  A line holds hexadecimal words between blanks, and a semicolon starts a
comment.  Writing puts each instruction on a line of its own, with its text as a comment. -/

namespace Dcpu16.Image

/-- Why text or bytes are no image. -/
inductive Error where
  /-- A word of the text on this line is no number of four hexadecimal digits. -/
  | invalidWord (line : Nat) (word : String)
  /-- A binary image has this odd number of bytes. -/
  | oddLength (bytes : Nat)
  deriving DecidableEq, Repr

def Error.message : Error → String
  | invalidWord line word => s!"parse error on line {line}: invalid hex word: {word}"
  | oddLength n => s!"binary image has odd length {n}"

namespace Hex

/-- The text of a line before its comment. -/
def code (line : List Char) : List Char := line.takeWhile (· != ';')

/-- Drops the base mark of a hexadecimal number. -/
def dropMark : List Char → List Char
  | '0' :: 'x' :: ds => ds
  | '0' :: 'X' :: ds => ds
  | ds => ds

/-- The word that a token stands for. -/
def word? (token : List Char) : Option UInt16 :=
  match Text.readUnsigned? 16 (dropMark token) with
  | some n => if n ≤ 0xFFFF then some (.ofNat n) else none
  | none => none

/-- Reads a token of the line with this number. -/
def readWord (line : Nat) (token : List Char) : Except Error UInt16 :=
  match word? token with
  | some w => .ok w
  | none => .error (.invalidWord line (String.ofList token))

/-- The tokens of a text in reading order, each with the number of its line. -/
def tokens (text : List Char) : List (Nat × List Char) :=
  ((Text.lines text).zipIdx 1).flatMap fun (line, n) =>
    (Text.words (code line)).map fun token => (n, token)

/-- The words of a text image, or its first bad token. -/
def parse (text : List Char) : Except Error (List UInt16) :=
  (tokens text).mapM fun (n, token) => readWord n token

/-- One line of a text image: the words of an instruction and where they start. -/
structure Group where
  start : Nat
  words : List UInt16
  deriving DecidableEq, Repr

/-- The number of words of the instruction that starts with `w`. -/
def sizeOf (w : UInt16) : Nat :=
  match Instruction.decode w with
  | .ok i => i.size
  | .error _ => 1

/-- The instruction of a group as text. -/
def Group.comment (g : Group) : String :=
  match g.words with
  | [] => ""
  | w :: extension =>
    match Instruction.decode w with
    | .ok i => i.text extension
    | .error _ => ""

/-- A group as a line of text: the words in a column of fifteen, then the comment. -/
def Group.render (g : Group) : String :=
  let words := " ".intercalate (g.words.map fun w => Text.hex4 w.toNat)
  s!"{Text.padRight 15 words} ; {Text.hex4 g.start}: {g.comment}\n"

theorem sizeOf_pos (w : UInt16) : 0 < sizeOf w := by
  unfold sizeOf
  split
  · exact Instruction.size_pos _
  · exact Nat.one_pos

/-- The groups of `ws`, which starts at `start`, after those in `done`, which are in reverse. -/
def groupsFrom (start : Nat) (done : List Group) : List UInt16 → List Group
  | [] => done.reverse
  | w :: ws =>
    let words := (w :: ws).take (sizeOf w)
    groupsFrom (start + words.length) (⟨start, words⟩ :: done) ((w :: ws).drop (sizeOf w))
termination_by ws => ws.length
decreasing_by
  have := sizeOf_pos w
  simp only [List.length_drop, List.length_cons]
  omega

/-- The words of a program by instruction; the end of the list may cut the last one off. -/
def groups (program : List UInt16) : List Group := groupsFrom 0 [] program

/-- A program as a text image. -/
def render (program : List UInt16) : String :=
  s!"; DCPU-16 program image\n; {program.length} words\n\n" ++
    String.join ((groups program).map Group.render)

end Hex

end Dcpu16.Image
