import Dcpu16.Text.Printable
import Dcpu16.Text.Radix

/-! Texts in quotation marks, for messages.  Marks and backslashes get a backslash in front, and
characters that cannot be shown are written as escapes. -/

namespace Dcpu16.Text

/-- A character inside quotation marks. -/
def escapedChar (c : Char) : String :=
  match c with
  | '"' => "\\\""
  | '\\' => "\\\\"
  | '\n' => "\\n"
  | '\r' => "\\r"
  | '\t' => "\\t"
  | '\x00' => "\\0"
  | c => if isPrintable c then String.singleton c
    else "\\u\x7b" ++ hex c.toNat ++ "\x7d"

/-- A text in quotation marks. -/
def escaped (s : String) : String := s.foldl (fun out c => out ++ escapedChar c) "\"" ++ "\""

end Dcpu16.Text
