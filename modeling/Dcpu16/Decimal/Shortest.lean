/-! The shortest decimal of a binary64 number: of all decimals that are nearer to it than to any
other number of the format, one with the fewest digits, and of those the nearest.  The number is
taken apart into a natural number times a power of two, and all comparisons are made on natural
numbers. -/

namespace Dcpu16.Decimal

/-- What the bits of a float say. -/
inductive Parts where
  | nan
  | infinite (negative : Bool)
  /-- The number `significand * 2 ^ exponent`, with a sign. -/
  | finite (negative : Bool) (significand : Nat) (exponent : Int)
  deriving DecidableEq, Repr

/-- Takes a float apart. -/
def Parts.ofFloat (x : Float) : Parts :=
  let bits := x.toBits.toNat
  let negative := decide (0x8000000000000000 ≤ bits)
  let field : Nat := bits / 0x10000000000000 % 0x800
  let low : Nat := bits % 0x10000000000000
  if field = 2047 then if low = 0 then infinite negative else nan
  else if field = 0 then finite negative low (-1074)
  else finite negative (0x10000000000000 + low) ((field : Int) - 1075)

/-- Which of two equally near decimals is taken. -/
inductive Tie where
  | even
  | up
  deriving DecidableEq, Repr

/-- The fraction `n * 2 ^ two / 10 ^ ten`, as numerator and denominator. -/
def ratio (n : Nat) (two ten : Int) : Nat × Nat :=
  (n * Nat.pow 2 two.toNat * Nat.pow 10 (-ten).toNat,
    Nat.pow 2 (-two).toNat * Nat.pow 10 ten.toNat)

/-- The exponent of the highest power of ten that is at most the positive fraction `num / den`. -/
def magnitude (num den : Nat) : Int :=
  if den ≤ num then ((Nat.toDigits 10 (num / den)).length : Int) - 1
  else
    let n := (Nat.toDigits 10 (den / num)).length
    if den ≤ num * Nat.pow 10 (n - 1) then -((n : Int) - 1) else -(n : Int)

/-- The numbers nearest to a float lie between these bounds, in quarters of its last place. -/
structure Interval where
  low : Nat
  middle : Nat
  high : Nat
  /-- The bounds themselves belong to the interval. -/
  closed : Bool
  /-- A quarter of the last place is this power of two. -/
  exponent : Int

/-- The interval of a positive float.  Below a power of two the next float is only half as far. -/
def Interval.of (significand : Nat) (exponent : Int) : Interval where
  low := 4 * significand - if significand = 0x10000000000000 ∧ -1074 < exponent then 1 else 2
  middle := 4 * significand
  high := 4 * significand + 2
  closed := significand % 2 = 0
  exponent := exponent - 2

/-- The number `n * 10 ^ ten` lies in the interval. -/
def Interval.contains (i : Interval) (n : Nat) (ten : Int) : Bool :=
  let (low, unit) := ratio i.low i.exponent ten
  let (high, _) := ratio i.high i.exponent ten
  if i.closed then low ≤ n * unit && n * unit ≤ high else low < n * unit && n * unit < high

/-- The multiple of `10 ^ ten` in the interval that is nearest to its middle, if there is one. -/
def Interval.nearest? (i : Interval) (tie : Tie) (ten : Int) : Option Nat :=
  let (num, den) := ratio i.middle i.exponent ten
  let below := num / den
  let above := below + 1
  match i.contains below ten, i.contains above ten with
  | true, true =>
    let toBelow := num - below * den
    let toAbove := above * den - num
    let takeAbove := toAbove < toBelow || (toAbove == toBelow && (tie == .up || below % 2 == 1))
    some (if takeAbove then above else below)
  | true, false => some below
  | false, true => some above
  | false, false => none

/-- The first number found on the grids from `10 ^ ten` down to finer ones. -/
def Interval.search (i : Interval) (tie : Tie) : Nat → Int → Nat × Int
  | 0, ten => (i.middle, ten)
  | grids + 1, ten =>
    match i.nearest? tie ten with
    | some n => (n, ten)
    | none => i.search tie grids (ten - 1)

/-- Seventeen digits always tell a float from its neighbours. -/
def maxDigits : Nat := 17

/-- Digits without trailing zeros and the exponent of ten of the last one, for the positive number
`significand * 2 ^ exponent`. -/
def shortest (tie : Tie) (significand : Nat) (exponent : Int) : List Char × Int :=
  let (num, den) := ratio significand exponent 0
  let (n, ten) := (Interval.of significand exponent).search tie maxDigits (magnitude num den)
  let digits := Nat.toDigits 10 n
  let kept := (digits.reverse.dropWhile (· == '0')).reverse
  (kept, ten + ((digits.length - kept.length : Nat) : Int))

end Dcpu16.Decimal
