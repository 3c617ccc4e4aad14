import Dcpu16.Pace.Duration

/-! Timing of ticks, summed up once every so many ticks. -/

namespace Dcpu16

/-- The longest interval between two summaries. -/
def Tally.maxInterval : Nat := 0xFFFFFFFF

/-- The ticks since the latest summary. -/
structure Tally where
  interval : Nat
  count : Nat := 0
  total : Duration := .zero
  interval_pos : 0 < interval
  interval_le : interval ≤ Tally.maxInterval

/-- The timing of one full interval. -/
structure Tally.Summary where
  ticks : Nat
  total : Duration
  average : Duration
  deriving DecidableEq

namespace Tally

/-- A tally for an interval, which is brought between one and the longest interval. -/
def ofInterval (n : Nat) : Tally where
  interval := min (max n 1) maxInterval
  interval_pos := by simp only [maxInterval]; omega
  interval_le := Nat.min_le_right ..

/-- Starts over. -/
def reset (t : Tally) : Tally := { t with count := 0, total := .zero }

/-- Counts a tick that took `elapsed`, and sums up once the interval is full.  There is no result if
the sum is too long for a duration. -/
def record (t : Tally) (elapsed : Duration) : Option (Tally × Option Summary) :=
  match t.total.add? elapsed with
  | none => none
  | some total =>
    let count := t.count + 1
    if count < t.interval then some ({ t with count, total }, none)
    else
      let divisor := UInt32.ofNat count
      some (t.reset, some { ticks := count, total, average := total.part divisor.toNat })

/-- Counts a tick behind others, whose results are given in reverse. -/
def recordBehind : Tally × List (Option Summary) → Duration →
    Except Duration.AddError (Tally × List (Option Summary))
  | (t, done), elapsed =>
    match t.record elapsed with
    | some (t, result) => .ok (t, result :: done)
    | none => .error .overflow

/-- Counts ticks one after another, with the result of each, unless a sum on the way is too long for
a duration. -/
def recordAll (t : Tally) (times : List Duration) :
    Except Duration.AddError (Tally × List (Option Summary)) :=
  (times.foldlM recordBehind (t, [])).map fun (t, done) => (t, done.reverse)

/-- The frequency that the ticks of a summary could keep up, were there no waiting. -/
def Summary.maxFrequency (s : Summary) : Float :=
  let average := s.average.toSeconds
  if 0 < average then 1.0 / average else 1.0 / 0.0

end Tally

/-- Ticks per second over some time. -/
def frequencyOf (ticks : Nat) (elapsed : Duration) : Float :=
  let seconds := elapsed.toSeconds
  if 0 < seconds then ticks.toUInt64.toFloat / seconds else 0.0

end Dcpu16
