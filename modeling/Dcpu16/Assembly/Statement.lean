import Dcpu16.Assembly.Operand
import Dcpu16.Text.Quotation

/-! Lines of source text.  A line may define a label, written `:name` or `name:`, and may hold one
statement: an instruction with two operands, or data.  A semicolon outside quotations starts a
comment. -/

namespace Dcpu16.Assembly

/-- An item of a data line. -/
inductive Datum where
  | value (v : Value)
  /-- A quotation, which stands for one word for each character. -/
  | text (cs : List Char)
  deriving DecidableEq, Repr

/-- What a line puts into the program. -/
inductive Statement where
  | instruction (opcode : Opcode) (a b : Argument)
  | data (items : List Datum)
  deriving DecidableEq, Repr

/-- The text of a quotation that is the whole of an item. -/
def quotation? : List Char → Option (List Char)
  | '"' :: cs => if cs.getLast? = some '"' then some cs.dropLast else none
  | _ => none

def Datum.parse (item : List Char) : Except Cause Datum :=
  match quotation? item with
  | some cs => .ok (.text cs)
  | none => (Value.parse item).map .value

/-- The text up to the first blank, and the text after it without blanks at the ends. -/
def splitWord (cs : List Char) : List Char × List Char :=
  (cs.takeWhile (!Text.isBlank ·), Text.trim (cs.dropWhile (!Text.isBlank ·)))

/-- The items of a data line. -/
def Statement.parseData (rest : List Char) : Except Cause Statement :=
  if rest.isEmpty then .error .missingData
  else do
    return .data (← (Text.splitOutside ',' rest).mapM fun item => Datum.parse (Text.trim item))

/-- The operands of an instruction. -/
def Statement.parseInstruction (mnemonic : String) (opcode : Opcode) (rest : List Char) :
    Except Cause Statement :=
  match (rest.splitOn ',').map Text.trim with
  | [a, b] =>
    if a.isEmpty || b.isEmpty then .error (.operandCount mnemonic)
    else do return .instruction opcode (← Argument.parse a) (← Argument.parse b)
  | _ => .error (.operandCount mnemonic)

/-- The statement that a text without label and comment stands for. -/
def Statement.parse (text : List Char) : Except Cause Statement :=
  let (word, rest) := splitWord text
  let mnemonic := String.ofList (Text.upper word)
  if mnemonic = "DAT" ∨ mnemonic = "DATA" then parseData rest
  else
    match Opcode.ofMnemonic? mnemonic.toList with
    | some opcode => parseInstruction mnemonic opcode rest
    | none => .error (.unknownMnemonic mnemonic)

/-- The words that a statement puts into the program, labels not yet replaced by addresses. -/
def Statement.cells : Statement → List Value
  | .instruction opcode a b =>
    let word := Instruction.encode ⟨opcode, a.operand, b.operand⟩
    .number word :: (a.extra.toList ++ b.extra.toList)
  | .data items => items.flatMap fun
    | .value v => [v]
    | .text cs => cs.map fun c => .number (.ofNat c.toNat)

/-- A line of source text, taken apart but not yet read. -/
structure Line where
  /-- The name of the label that the line defines. -/
  label : Option (List Char)
  /-- The rest of the line, without label, comment and blanks at the ends. -/
  body : List Char
  deriving DecidableEq, Repr

/-- Takes a line apart. -/
def Line.ofText (line : List Char) : Line :=
  let code := Text.trim (Text.before ';' line)
  match code with
  | ':' :: rest =>
    let (name, body) := splitWord rest
    ⟨some name, body⟩
  | _ =>
    let head := code.takeWhile (· != ':')
    if code.contains ':' && !head.contains '"' && !head.any Text.isBlank then
      ⟨some head, Text.trim (code.drop (head.length + 1))⟩
    else ⟨none, code⟩

/-- The statement of a line, if it has one. -/
def Line.statement (l : Line) : Except Cause (Option Statement) :=
  if l.body.isEmpty then .ok none else (Statement.parse l.body).map some

end Dcpu16.Assembly
