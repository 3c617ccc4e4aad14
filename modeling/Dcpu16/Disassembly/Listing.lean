import Dcpu16.Disassembly.Text

/-! Listings.  A listing has one line for each instruction: its address, its text and its words.
The instruction after a conditional is indented.  The words of an instruction that the end of the
list cuts off are completed with zeros. -/

namespace Dcpu16.Listing

/-- One line of a listing. -/
structure Line where
  address : Nat
  indented : Bool
  text : String
  raw : List UInt16
  deriving DecidableEq, Repr

/-- A line as text: the address, the instruction in a column of thirty and the raw words. -/
def Line.render (l : Line) : String :=
  let text := if l.indented then "    " ++ l.text else l.text
  let raw := " ".intercalate (l.raw.map fun w => Text.hex4 w.toNat)
  s!"{Text.hex4 l.address}: {Text.padRight 30 text} ; {raw}\n"

/-- The word of a program at an address; past the end there are zeros. -/
def fetch (program : Array UInt16) (address : UInt16) : UInt16 := program[address.toNat]?.getD 0

/-- The instruction at an address is one of the conditionals. -/
def isConditionalAt (program : Array UInt16) (address : UInt16) : Bool :=
  match Instruction.decode (fetch program address) with
  | .ok i => i.opcode.isConditional
  | .error _ => false

/-- The line at a position of a program. -/
def lineAt (program : Array UInt16) (position : Nat) (indented : Bool) : Line :=
  let address := UInt16.ofNat position
  let (text, size) := textAt (fetch program) address
  { address := position, indented, text, raw := wordsAt (fetch program) address size }

/-- The lines from a position on, after those in `done`, which are in reverse. -/
def linesFrom (program : Array UInt16) (position : Nat) (indented : Bool) (done : List Line) :
    List Line :=
  if position < program.size then
    let address := UInt16.ofNat position
    linesFrom program (position + (textAt (fetch program) address).2)
      (isConditionalAt program address) (lineAt program position indented :: done)
  else done.reverse
termination_by program.size - position
decreasing_by
  have := textAt_pos (fetch program) (UInt16.ofNat position)
  omega

/-- The lines of a program. -/
def lines (program : List UInt16) : List Line := linesFrom program.toArray 0 false []

/-- The listing of a program, under a title. -/
def render (program : List UInt16) : String :=
  "; DCPU-16 Disassembly\n; -------------------\n\n" ++
    String.join ((lines program).map Line.render)

end Dcpu16.Listing
