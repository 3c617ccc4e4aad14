import Dcpu16.Decimal.Nearest
import Dcpu16.Decimal.Shortest

/-! Floats with a fixed number of decimal places. -/

namespace Dcpu16.Decimal

/-- A float with `places` decimal places, rounded to the nearest, a tie going to the even digit. -/
def fixed (places : Nat) (x : Float) : String :=
  match Parts.ofFloat x with
  | .nan => "NaN"
  | .infinite negative => if negative then "-inf" else "inf"
  | .finite negative significand exponent =>
    let (num, den) := ratio significand exponent (-places)
    let digits := Nat.toDigits 10 (roundEven num den)
    let padded := List.replicate (places + 1 - digits.length) '0' ++ digits
    let whole := padded.take (padded.length - places)
    let fraction := padded.drop (padded.length - places)
    (if negative then "-" else "") ++ String.ofList whole ++
      if fraction.isEmpty then "" else "." ++ String.ofList fraction

end Dcpu16.Decimal
