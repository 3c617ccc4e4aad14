import Dcpu16.Decimal.Numeral

/-! Reading a numeral as a float, the fast way: the digits that fit 64 bits are converted, and the
result is multiplied or divided by a power of ten, with one rounding in each operation.  A result
may be off in its last places; a numeral too large for a float is refused. -/

namespace Dcpu16.Json

open Decimal (Numeral)

/-- The largest number of 64 bits. -/
def maxWord64 : Nat := 0xFFFFFFFFFFFFFFFF

/-- The largest exponent that is kept, of either sign. -/
def maxExponent : Nat := 0x7FFFFFFF

/-- The leading digits of a numeral, as far as they fit 64 bits. -/
structure Leading where
  significand : Nat := 0
  /-- The power of ten of the last digit of the significand. -/
  exponent : Int := 0
  /-- A digit has been left out. -/
  full : Bool := false
  deriving DecidableEq, Repr

namespace Leading

/-- Takes one more digit, if there is room. -/
def push (l : Leading) (digit : Nat) : Option Leading :=
  if !l.full && l.significand * 10 + digit ≤ maxWord64 then
    some { l with significand := l.significand * 10 + digit }
  else none

/-- Takes a digit before the point; a digit left out raises the exponent. -/
def pushWhole (l : Leading) (c : Char) : Leading :=
  match l.push (c.toNat - 48) with
  | some l => l
  | none => { l with full := true, exponent := l.exponent + 1 }

/-- Takes a digit after the point, which lowers the exponent. -/
def pushFraction (l : Leading) (c : Char) : Leading :=
  match l.push (c.toNat - 48) with
  | some l => { l with exponent := l.exponent - 1 }
  | none => { l with full := true }

/-- The leading digits of a numeral.  Room is looked for anew after the point. -/
def ofNumeral (n : Numeral) : Leading :=
  let whole := n.whole.foldl pushWhole {}
  n.fraction.foldl pushFraction { whole with full := false }

end Leading

/-- Ten to the power `n`, rounded. -/
def powerOfTen (n : Nat) : Float := Float.ofScientific 1 false n

/-- Multiplies or divides by a power of ten, in steps of at most 308; `none` if the result is too
large. -/
def scale (x : Float) (exponent : Int) : Option Float :=
  if exponent < -308 then
    if x == 0 then some x else scale (x / powerOfTen 308) (exponent + 308)
  else if exponent < 0 then some (x / powerOfTen (-exponent).toNat)
  else if exponent ≤ 308 then
    let y := x * powerOfTen exponent.toNat
    if y.isInf then none else some y
  else if x == 0 then some x
  else none
termination_by exponent.natAbs
decreasing_by omega

/-- The float that leading digits and an exponent stand for. -/
def Leading.toFloat? (l : Leading) (exponent : Int) : Option Float :=
  let x := l.significand.toUInt64.toFloat
  if maxExponent < exponent.natAbs then
    if l.significand ≠ 0 && decide (0 < exponent) then none else some 0
  else
    let sum := l.exponent + exponent
    scale x (max (-0x80000000) (min sum 0x7FFFFFFF))

/-- The float that a numeral stands for. -/
def toFloat? (n : Numeral) : Option Float :=
  let x := (Leading.ofNumeral n).toFloat? (n.exponent.getD 0)
  x.map fun x => if n.negative then -x else x

end Dcpu16.Json
