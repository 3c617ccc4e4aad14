import Dcpu16.Pace.Duration

/-! Pacing ticks to a target frequency.  A cycle that finishes early waits for the rest of its
period; a cycle that takes longer is not made up for. -/

namespace Dcpu16

/-- The time that one cycle is to take. -/
structure Pacer where
  period : Duration
  deriving DecidableEq

namespace Pacer

/-- The pacer for a frequency in Hz, which must be positive and finite and have a period that is a
duration. -/
def ofFrequency? (hz : Float) : Option Pacer :=
  if hz.isFinite && 0 < hz then (Duration.ofSeconds? (1.0 / hz)).map Pacer.mk else none

/-- What is left of the period after `elapsed`. -/
def remaining (p : Pacer) (elapsed : Duration) : Duration := p.period.sub elapsed

/-- How long a cycle waits that has taken `elapsed`: not at all once shutdown is requested. -/
def pause (p : Pacer) (elapsed : Duration) (requested : Bool) : Duration :=
  if requested then .zero else p.remaining elapsed

end Pacer

end Dcpu16
