import Dcpu16.Text.Blank
import Dcpu16.Text.Radix
import Dcpu16.Text.Upper

/-! Values in source text: numbers and label names.  A number is hexadecimal after `0x`, binary
after `0b` and decimal if it starts with a digit or a minus sign; it denotes a word if it lies
between -32768 and 65535.  Anything else must be the name of a label. -/

namespace Dcpu16.Assembly

/-- What is wrong with a line of source text. -/
inductive Cause where
  /-- A label is defined whose name is no identifier. -/
  | invalidLabel (name : String)
  /-- An instruction does not have exactly two operands. -/
  | operandCount (mnemonic : String)
  /-- A data line holds no item. -/
  | missingData
  /-- A text starts like a number and is none, or none of 64 bits. -/
  | invalidNumber (text : String)
  | unknownMnemonic (mnemonic : String)
  | invalidOperand (operand : String)
  | undefinedLabel (label : String)
  | duplicateLabel (label : String)
  /-- A number is no word, neither signed nor unsigned. -/
  | valueOutOfRange (value : Int)
  | programTooLarge
  deriving DecidableEq, Repr

/-- A fault in source text, and the number of its line; zero stands for the text as a whole. -/
structure Error where
  line : Nat
  cause : Cause
  deriving DecidableEq, Repr

/-- What is wrong with the form of a line, if that is what is wrong with it. -/
def Cause.syntaxDetail? : Cause → Option String
  | invalidLabel name => some s!"invalid label name: {name}"
  | operandCount mnemonic => some s!"{mnemonic} takes two operands"
  | missingData => some "DAT requires a value"
  | invalidNumber text => some s!"invalid number: {text}"
  | _ => none

def Error.message (e : Error) : String :=
  match e.cause with
  | .unknownMnemonic m => s!"unknown mnemonic on line {e.line}: {m}"
  | .invalidOperand o => s!"invalid operand on line {e.line}: {o}"
  | .undefinedLabel l => s!"undefined label on line {e.line}: {l}"
  | .duplicateLabel l => s!"duplicate label on line {e.line}: {l}"
  | .valueOutOfRange v => s!"value out of range on line {e.line}: {v}"
  | .programTooLarge => s!"program does not fit in memory (line {e.line})"
  | cause =>
    let detail := cause.syntaxDetail?.getD ""
    s!"syntax error on line {e.line}: {detail}"

/-- A word that may not be known before every label has been seen. -/
inductive Value where
  | number (w : UInt16)
  /-- The address of the label of this name. -/
  | label (name : String)
  deriving DecidableEq, Repr

/-- An ASCII letter or an underscore. -/
def isNameStart (c : Char) : Bool := c.isAlpha || c == '_'

/-- A character that a name may go on with. -/
def isNamePart (c : Char) : Bool := c.isAlphanum || c == '_' || c == '.'

/-- A text that can name a label. -/
def isIdentifier : List Char → Bool
  | [] => false
  | c :: cs => isNameStart c && cs.all isNamePart

/-- The key of a label: labels that differ only in case are one. -/
def labelKey (name : List Char) : String := String.ofList (Text.upperAscii name)

/-- The base and the digits of a text that starts like a number. -/
def numeral? : List Char → Option (Nat × List Char)
  | '0' :: 'x' :: ds => some (16, ds)
  | '0' :: 'X' :: ds => some (16, ds)
  | '0' :: 'b' :: ds => some (2, ds)
  | '0' :: 'B' :: ds => some (2, ds)
  | c :: ds => if c.isDigit || c == '-' then some (10, c :: ds) else none
  | [] => none

/-- The number of the digits `ds`, if it has 64 bits with its sign. -/
def readNumber? (base : Nat) (ds : List Char) : Option Int :=
  (Text.readSigned? base ds).filter fun n =>
    decide (-0x8000000000000000 ≤ n ∧ n < 0x8000000000000000)

/-- The word of a number, by its two's complement if it is negative. -/
def Value.ofInt (n : Int) : Except Cause Value :=
  if -0x8000 ≤ n ∧ n ≤ 0xFFFF then .ok (.number (.ofNat (n % 65536).toNat))
  else .error (.valueOutOfRange n)

/-- The value that a text stands for. -/
def Value.parse (text : List Char) : Except Cause Value :=
  let text := Text.trim text
  match numeral? text with
  | some (base, ds) =>
    match readNumber? base ds with
    | some n => Value.ofInt n
    | none => .error (.invalidNumber (String.ofList text))
  | none =>
    if isIdentifier text then .ok (.label (labelKey text))
    else .error (.invalidOperand (String.ofList text))

end Dcpu16.Assembly
