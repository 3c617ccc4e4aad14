import Dcpu16.Decimal.Nearest
import Dcpu16.Decimal.Shortest
import Dcpu16.Text.Radix

/-! Lengths of time: a whole number of nanoseconds, of which the seconds fit 64 bits. -/

namespace Dcpu16

/-- The number of nanoseconds of a second. -/
def Duration.perSecond : Nat := 1000000000

/-- The number of different durations. -/
def Duration.limit : Nat := 0x10000000000000000 * Duration.perSecond

/-- A length of time. -/
structure Duration where
  nanos : Nat
  nanos_lt : nanos < Duration.limit := by decide
  deriving DecidableEq

namespace Duration

def zero : Duration := { nanos := 0 }

/-- The duration of this many nanoseconds, if there is one. -/
def ofNanos? (n : Nat) : Option Duration := if h : n < limit then some ⟨n, h⟩ else none

/-- The whole seconds of a duration. -/
def seconds (d : Duration) : Nat := d.nanos / perSecond

/-- The nanoseconds of a duration beyond its whole seconds. -/
def rest (d : Duration) : Nat := d.nanos % perSecond

/-- The sum of two durations, if it is a duration. -/
def add? (d e : Duration) : Option Duration := ofNanos? (d.nanos + e.nanos)

/-- Why durations cannot be added. -/
inductive AddError where
  /-- The sum is too long for a duration. -/
  | overflow
  deriving DecidableEq, Repr

def AddError.message : AddError → String
  | overflow => "overflow when adding durations"

/-- What is left of `d` after `e`; nothing if `e` is longer. -/
def sub (d e : Duration) : Duration := ⟨d.nanos - e.nanos, by have := d.nanos_lt; omega⟩

/-- The `n`-th part of a duration, rounded down. -/
def part (d : Duration) (n : Nat) : Duration :=
  ⟨d.nanos / n, Nat.lt_of_le_of_lt (Nat.div_le_self ..) d.nanos_lt⟩

/-- A duration in seconds: the whole seconds and the fraction are rounded, and so is their sum. -/
def toSeconds (d : Duration) : Float :=
  d.seconds.toUInt64.toFloat + d.rest.toUInt64.toFloat / perSecond.toUInt64.toFloat

/-- The duration of a number of seconds, to the nearest nanosecond; there is none for a number that
is negative or too large. -/
def ofSeconds? (x : Float) : Option Duration :=
  match Decimal.Parts.ofFloat x with
  | .finite negative significand exponent =>
    if negative && significand ≠ 0 then none
    else
      let (num, den) := Decimal.ratio (significand * perSecond) exponent 0
      ofNanos? (Decimal.roundEven num den)
  | _ => none

/-- The longest duration of at most this many nanoseconds. -/
def ofNanos (n : Nat) : Duration :=
  ⟨min n (limit - 1), Nat.lt_of_le_of_lt (Nat.min_le_right ..) (by decide)⟩

/-- The number `n / 10 ^ places` with the decimal places that it needs. -/
def decimal (n places : Nat) : String :=
  let fraction := Text.padLeft '0' places (toString (n % Nat.pow 10 places))
  let needed := (fraction.toList.reverse.dropWhile (· == '0')).reverse
  toString (n / Nat.pow 10 places) ++
    if needed.isEmpty then "" else "." ++ String.ofList needed

/-- A duration in the largest of seconds, milliseconds, microseconds and nanoseconds of which it
holds at least one. -/
def text (d : Duration) : String :=
  if perSecond ≤ d.nanos then decimal d.nanos 9 ++ "s"
  else if 1000000 ≤ d.nanos then decimal d.nanos 6 ++ "ms"
  else if 1000 ≤ d.nanos then decimal d.nanos 3 ++ "µs"
  else decimal d.nanos 0 ++ "ns"

theorem ofNanos?_eq_some {n : Nat} {d : Duration} : ofNanos? n = some d ↔ d.nanos = n := by
  unfold ofNanos?
  split
  · rename_i h
    simp only [Option.some.injEq]
    constructor
    · rintro rfl
      rfl
    · rintro rfl
      rfl
  · rename_i h
    simp only [reduceCtorEq, false_iff]
    rintro rfl
    exact h d.nanos_lt

theorem ofNanos?_eq_none {n : Nat} : ofNanos? n = none ↔ limit ≤ n := by
  unfold ofNanos?
  split <;> simp_all

end Duration

end Dcpu16
