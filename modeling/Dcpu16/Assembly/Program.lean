import Dcpu16.Assembly.Statement
import Dcpu16.Machine.Memory
import Dcpu16.Text.Lines
import Std.Data.HashMap

/-! Assembling a program in one pass over its lines.  A label's address is not known before its
definition, so a reference first puts a zero into the output and is noted; after the last line each
noted word is replaced by the address of its label. -/

namespace Dcpu16.Assembly

/-- A word of the output that waits for the address of a label. -/
structure Reference where
  position : Nat
  label : String
  line : Nat
  deriving DecidableEq, Repr

/-- A program of which some lines have been assembled. -/
structure Draft where
  symbols : Std.HashMap String UInt16 := {}
  references : Array Reference := #[]
  output : Array UInt16 := #[]

namespace Draft

/-- Lets a name stand for the address of the next word. -/
def define (d : Draft) (name : List Char) : Except Cause Draft :=
  let key := labelKey name
  if !isIdentifier name then .error (.invalidLabel (String.ofList name))
  else if d.symbols.contains key then .error (.duplicateLabel key)
  else if Memory.fullSize ≤ d.output.size then .error .programTooLarge
  else .ok { d with symbols := d.symbols.insert key (.ofNat d.output.size) }

/-- Puts a word of the line with this number into the output. -/
def emit (line : Nat) (d : Draft) : Value → Draft
  | .number w => { d with output := d.output.push w }
  | .label name =>
    { d with
      references := d.references.push ⟨d.output.size, name, line⟩
      output := d.output.push 0 }

/-- Assembles one line. -/
def addLine (d : Draft) (l : Line) (number : Nat) : Except Cause Draft := do
  let d ← match l.label with
    | some name => d.define name
    | none => .ok d
  match ← l.statement with
  | some s => return s.cells.foldl (emit number) d
  | none => return d

/-- Assembles lines of source text, each with its number. -/
def addLines (d : Draft) (lines : List (List Char × Nat)) : Except Error Draft :=
  lines.foldlM (fun d (line, number) =>
    (d.addLine (Line.ofText line) number).mapError fun cause => ⟨number, cause⟩) d

/-- Replaces a noted word by the address of its label. -/
def resolve (symbols : Std.HashMap String UInt16) (output : Array UInt16) (r : Reference) :
    Except Error (Array UInt16) :=
  match symbols[r.label]? with
  | some address => .ok (output.setIfInBounds r.position address)
  | none => .error ⟨r.line, .undefinedLabel r.label⟩

/-- The finished program. -/
def finish (d : Draft) : Except Error (List UInt16) := do
  let output ← d.references.toList.foldlM (resolve d.symbols) d.output
  if Memory.fullSize < output.size then throw ⟨0, .programTooLarge⟩
  return output.toList

end Draft

/-- The words of a source text. -/
def assemble (source : List Char) : Except Error (List UInt16) := do
  let d ← ({} : Draft).addLines ((Text.lines source).zipIdx 1)
  d.finish

end Dcpu16.Assembly
