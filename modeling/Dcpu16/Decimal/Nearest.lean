import Dcpu16.Decimal.Numeral

/-! The float nearest to a number.  A fraction is divided on natural numbers to as many binary
digits as a float keeps there, and only this division rounds. -/

namespace Dcpu16.Decimal

/-- The fraction `num / den` rounded to the nearest whole number, a tie going to the even one. -/
def roundEven (num den : Nat) : Nat :=
  let q := num / den
  let r := num % den
  if den < 2 * r ∨ (2 * r = den ∧ q % 2 = 1) then q + 1 else q

/-- The exponent of the last binary digit that a float keeps of a positive fraction `num / den`. -/
def lastPlace (num den : Nat) : Int :=
  let e : Int := num.log2 - den.log2 - 53
  let tooFine := 0x20000000000000 * den * Nat.pow 2 e.toNat ≤ num * Nat.pow 2 (-e).toNat
  max (-1074) (if tooFine then e + 1 else e)

/-- The float nearest to the fraction `num / den`, a tie going to the even one. -/
def nearest (num den : Nat) : Float :=
  if num = 0 then 0
  else
    let e := lastPlace num den
    let digits := roundEven (num * Nat.pow 2 (-e).toNat) (den * Nat.pow 2 e.toNat)
    digits.toUInt64.toFloat.scaleB e

/-- A power of ten beyond which no float but zero and infinity lies. -/
def beyond : Nat := 400

/-- The float nearest to a numeral; it is infinite if the numeral is too large. -/
def Numeral.toFloat (n : Numeral) : Float :=
  let digits := n.whole ++ n.fraction
  let significand := value digits
  let exponent := n.exponent.getD 0 - n.fraction.length
  let point := exponent + (Nat.toDigits 10 significand).length
  let magnitude :=
    if significand = 0 ∨ point < -beyond then 0
    else if (beyond : Int) < point then 1.0 / 0.0
    else nearest (significand * Nat.pow 10 exponent.toNat) (Nat.pow 10 (-exponent).toNat)
  if n.negative then -magnitude else magnitude

end Dcpu16.Decimal
