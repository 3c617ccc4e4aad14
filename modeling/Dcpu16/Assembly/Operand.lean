import Dcpu16.Assembly.Value
import Dcpu16.Machine.Instruction

/-! Operands in source text, in either case.  A number that fits the value code is embedded in it;
any other number and every label takes an extension word, so the size of an instruction does not
depend on where labels lie. -/

namespace Dcpu16.Assembly

/-- An operand with the extension word that it needs, if it needs one. -/
structure Argument where
  operand : Operand
  extra : Option Value := none
  deriving DecidableEq, Repr

/-- The text between square brackets that enclose the whole of a text. -/
def bracketed? : List Char → Option (List Char)
  | '[' :: cs => if cs.getLast? = some ']' then some cs.dropLast else none
  | _ => none

/-- The texts before and after the first plus sign. -/
def splitPlus? (cs : List Char) : Option (List Char × List Char) :=
  if cs.contains '+' then
    let left := cs.takeWhile (· != '+')
    some (left, cs.drop (left.length + 1))
  else none

/-- The operands that a word names, other than the general registers. -/
def keyword? (name : String) : Option Operand :=
  match name with
  | "POP" => some .pop
  | "PEEK" => some .peek
  | "PUSH" => some .push
  | "SP" => some .sp
  | "PC" => some .pc
  | "O" => some .overflow
  | _ => none

/-- The argument that a cell's address stands for; `source` is the operand as written. -/
def Argument.ofAddress (source address : List Char) : Except Cause Argument :=
  match splitPlus? address with
  | some (left, right) =>
    match Register.ofName? left, Register.ofName? right with
    | some r, none => do return { operand := .offset r, extra := some (← Value.parse right) }
    | none, some r => do return { operand := .offset r, extra := some (← Value.parse left) }
    | _, _ => .error (.invalidOperand (String.ofList source))
  | none =>
    match Register.ofName? address with
    | some r => .ok { operand := .indirect r }
    | none => do return { operand := .nextCell, extra := some (← Value.parse address) }

/-- The argument that a value stands for. -/
def Argument.ofValue : Value → Argument
  | .number n => if n ≤ 0x1F then { operand := .literal n }
    else { operand := .next, extra := some (.number n) }
  | v => { operand := .next, extra := some v }

/-- The argument that a text stands for. -/
def Argument.parse (source : List Char) : Except Cause Argument :=
  let text := Text.upper source
  match bracketed? text with
  | some address => Argument.ofAddress source address
  | none =>
    match keyword? (String.ofList text) with
    | some operand => .ok { operand }
    | none =>
      match Register.ofName? text with
      | some r => .ok { operand := .register r }
      | none => (Value.parse text).map .ofValue

end Dcpu16.Assembly
