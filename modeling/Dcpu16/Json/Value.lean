import Dcpu16.Decimal.Numeral

/-! JSON values.  Numbers keep their digits, and members keep their order and their repetitions, so
a reader of a value decides what they mean. -/

namespace Dcpu16.Json

open Decimal (Numeral)

/-- The text of a string literal.  It is `none` if the escapes of the literal leave half of a
surrogate pair, which is no character. -/
abbrev Contents := Option String

/-- A JSON value. -/
inductive Value where
  | null
  | bool (b : Bool)
  | number (n : Numeral)
  | string (s : Contents)
  | array (elements : List Value)
  | object (members : List (Contents × Value))
  deriving Repr

namespace Value

/-- A string with a text. -/
def text (s : String) : Value := string (some s)

/-- A natural number. -/
def nat (n : Nat) : Value := number (.ofNat n)

/-- An object whose members have these names. -/
def record (fields : List (String × Value)) : Value :=
  object (fields.map fun (name, v) => (some name, v))

end Value

end Dcpu16.Json
