import Dcpu16.Decimal.Numeral
import Dcpu16.Decimal.Shortest

/-! How floats are written.  The digits are always the shortest ones; a style says where the point
may stand in a numeral without exponent, and whether a whole number has a fraction. -/

namespace Dcpu16.Decimal

/-- A way to write floats. -/
structure Style where
  /-- Numerals have no exponent if this holds of the number of digits before the point, which is
  negative or zero for numbers below one. -/
  positional : Int → Bool
  /-- Whole numbers end in a point and a zero. -/
  pointZero : Bool
  tie : Tie

/-- The style of configuration files and state dumps. -/
def Style.stored : Style where
  positional point := -5 < point && point ≤ 16
  pointZero := true
  tie := .even

/-- The style of messages, which never has an exponent. -/
def Style.message : Style where
  positional _ := true
  pointZero := false
  tie := .up

/-- The numeral of `digits` with the point after the first `point` of them. -/
def Style.numeral (style : Style) (negative : Bool) (digits : List Char) (point : Int) : Numeral :=
  let zeros (n : Int) := List.replicate n.toNat '0'
  let whole := if style.pointZero then ['0'] else []
  if style.positional point then
    if point ≤ 0 then { negative, whole := ['0'], fraction := zeros (-point) ++ digits }
    else if digits.length ≤ point.toNat then
      { negative, whole := digits ++ zeros (point - digits.length), fraction := whole }
    else { negative, whole := digits.take point.toNat, fraction := digits.drop point.toNat }
  else
    { negative, whole := digits.take 1, fraction := digits.drop 1, exponent := some (point - 1) }

/-- The numeral of a finite float. -/
def Style.ofParts (style : Style) (negative : Bool) (significand : Nat) (exponent : Int) :
    Numeral :=
  if significand = 0 then
    { negative, whole := ['0'], fraction := if style.pointZero then ['0'] else [] }
  else
    let (digits, ten) := shortest style.tie significand exponent
    style.numeral negative digits (digits.length + ten)

/-- The numeral of a float, if it is finite. -/
def Style.numeral? (style : Style) (x : Float) : Option Numeral :=
  match Parts.ofFloat x with
  | .finite negative significand exponent => some (style.ofParts negative significand exponent)
  | _ => none

/-- A float in a message. -/
def messageText (x : Float) : String :=
  match Parts.ofFloat x with
  | .nan => "NaN"
  | .infinite negative => if negative then "-inf" else "inf"
  | .finite negative significand exponent =>
    (Style.message.ofParts negative significand exponent).text

end Dcpu16.Decimal
