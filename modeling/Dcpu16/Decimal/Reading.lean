import Dcpu16.Decimal.Nearest

/-! Floats as an argument of a command gives them: a numeral that may lack the digits before or
after its point, or a name of one of the numbers that have no digits. -/

namespace Dcpu16.Decimal

/-- Splits off an optional sign; `true` stands for a minus. -/
def signOf : List Char → Bool × List Char
  | '-' :: cs => (true, cs)
  | '+' :: cs => (false, cs)
  | cs => (false, cs)

/-- The numeral that a text without sign is. -/
def readNumeral? (cs : List Char) : Option Numeral :=
  let whole := cs.takeWhile Char.isDigit
  let (fraction, rest) :=
    match cs.dropWhile Char.isDigit with
    | '.' :: cs => (cs.takeWhile Char.isDigit, cs.dropWhile Char.isDigit)
    | cs => ([], cs)
  if whole.isEmpty && fraction.isEmpty then none
  else (Numeral.readExponent? rest).map fun exponent => { whole, fraction, exponent }

/-- The float that a text stands for, to the nearest. -/
def readFloat? (cs : List Char) : Option Float :=
  let (negative, cs) := signOf cs
  let name := String.ofList (cs.map Char.toLower)
  let magnitude :=
    if name = "nan" then some (0.0 / 0.0)
    else if name = "inf" || name = "infinity" then some (1.0 / 0.0)
    else (readNumeral? cs).map Numeral.toFloat
  magnitude.map fun x => if negative then -x else x

end Dcpu16.Decimal
