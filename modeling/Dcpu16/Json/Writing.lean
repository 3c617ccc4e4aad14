import Dcpu16.Json.Value
import Dcpu16.Text.Radix

/-! Writing JSON values, on one line or with one part to a line, indented by two blanks for each
level. Marks, backslashes and control characters in strings are escaped; all else is written as it
is. -/

namespace Dcpu16.Json

/-- A character inside a string literal. -/
def escape (c : Char) : String :=
  match c with
  | '"' => "\\\""
  | '\\' => "\\\\"
  | '\x08' => "\\b"
  | '\x0c' => "\\f"
  | '\n' => "\\n"
  | '\r' => "\\r"
  | '\t' => "\\t"
  | c => if c.toNat < 0x20 then "\\u" ++ Text.hex4 c.toNat else String.singleton c

/-- A string literal; half a surrogate pair stands for all literals without a text. -/
def literal (s : Contents) : String :=
  match s with
  | some s => s.foldl (fun out c => out ++ escape c) "\"" ++ "\""
  | none => "\"\\ud800\""

/-- How the parts of a value are set apart. -/
inductive Layout where
  | compact
  | pretty
  deriving DecidableEq, Repr

/-- What stands before a part at this level of nesting. -/
def Layout.lineBreak (layout : Layout) (level : Nat) : String :=
  match layout with
  | compact => ""
  | pretty => "\n" ++ String.ofList (List.replicate (2 * level) ' ')

/-- What stands between a name and its value. -/
def Layout.colon : Layout → String
  | compact => ":"
  | pretty => ": "

mutual

/-- Writes a value at the given level of nesting behind `out`. -/
def Value.writeOnto (layout : Layout) (level : Nat) (out : String) : Value → String
  | .null => out ++ "null"
  | .bool b => out ++ if b then "true" else "false"
  | .number n => out ++ n.text
  | .string s => out ++ literal s
  | .array [] => out ++ "[]"
  | .array (v :: vs) =>
    let out := Value.writeOnto layout (level + 1) (out ++ "[" ++ layout.lineBreak (level + 1)) v
    elementsOnto layout (level + 1) out vs ++ layout.lineBreak level ++ "]"
  | .object [] => out ++ "\x7b\x7d"
  | .object (m :: ms) =>
    let out := memberOnto layout (level + 1) (out ++ "\x7b" ++ layout.lineBreak (level + 1)) m
    membersOnto layout (level + 1) out ms ++ layout.lineBreak level ++ "\x7d"

/-- Writes further elements behind `out`. -/
def elementsOnto (layout : Layout) (level : Nat) (out : String) : List Value → String
  | [] => out
  | v :: vs =>
    elementsOnto layout level
      (Value.writeOnto layout level (out ++ "," ++ layout.lineBreak level) v) vs

/-- Writes a member behind `out`. -/
def memberOnto (layout : Layout) (level : Nat) (out : String) : Contents × Value → String
  | (name, v) => Value.writeOnto layout level (out ++ literal name ++ layout.colon) v

/-- Writes further members behind `out`. -/
def membersOnto (layout : Layout) (level : Nat) (out : String) : List (Contents × Value) → String
  | [] => out
  | m :: ms =>
    membersOnto layout level (memberOnto layout level (out ++ "," ++ layout.lineBreak level) m) ms

end

/-- A value on one line. -/
def Value.compact (v : Value) : String := v.writeOnto .compact 0 ""

/-- A value with one part to a line. -/
def Value.pretty (v : Value) : String := v.writeOnto .pretty 0 ""

end Dcpu16.Json
