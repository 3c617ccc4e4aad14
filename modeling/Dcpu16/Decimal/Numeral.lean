import Dcpu16.Text.Radix

/-! Decimal numerals: digits before and after a point, with an optional exponent of ten. -/

namespace Dcpu16.Decimal

/-- A decimal numeral. -/
structure Numeral where
  negative : Bool := false
  /-- The digits before the point. -/
  whole : List Char
  /-- The digits after the point; if there are none there is no point. -/
  fraction : List Char := []
  exponent : Option Int := none
  deriving DecidableEq, Repr

namespace Numeral

/-- The numeral of a natural number. -/
def ofNat (n : Nat) : Numeral := { whole := Nat.toDigits 10 n }

/-- A numeral as text; an exponent always has a sign. -/
def text (n : Numeral) : String :=
  let sign := if n.negative then "-" else ""
  let fraction := if n.fraction.isEmpty then "" else "." ++ String.ofList n.fraction
  let exponent := match n.exponent with
    | some e => if e < 0 then s!"e{e}" else s!"e+{e}"
    | none => ""
  sign ++ String.ofList n.whole ++ fraction ++ exponent

/-- The number that digits stand for. -/
def value (digits : List Char) : Nat := Nat.ofDigitChars 10 digits 0

/-- The natural number of a numeral without sign, point and exponent. -/
def toNat? (n : Numeral) : Option Nat :=
  if n.negative || !n.fraction.isEmpty || n.exponent.isSome then none else some (value n.whole)

/-- The exponent that the rest of a numeral behind its digits is; there need not be one. -/
def readExponent? : List Char → Option (Option Int)
  | [] => some none
  | c :: cs => if c == 'e' || c == 'E' then (Text.readSigned? 10 cs).map some else none

end Numeral

end Dcpu16.Decimal
