import Dcpu16.Host.Step
import Dcpu16.Pace.Clock

/-! A schedule for runs.  Of all moves that can happen, the host's comes first, then those of the
observers in their order; tasks keep away from the machine and return when they are told; time
passes when nothing else is left to do. -/

namespace Dcpu16.Run

variable {σ : Type}

/-- The move that the schedule takes, if any is left. -/
def next? (r : Run σ) : Option Move :=
  if r.enabled .host then some .host
  else
    let workers := List.range r.workers.length
    match workers.find? fun i => r.enabled (.observer i) with
    | some i => some (.observer i)
    | none =>
      match workers.find? fun i => r.enabled (.retire i) with
      | some i => some (.retire i)
      | none => if r.enabled .elapse then some .elapse else none

/-- How long the host is still to wait. -/
def pause (r : Run σ) : Duration :=
  match r.stage with
  | .pausing deadline => .ofNanos (deadline - r.now)
  | _ => .zero

variable {m : Type → Type} [Monad m] [Observer σ]

/-- Carries on with a run for at most `n` moves, by the time of a clock, and writes its records as
they come. -/
def advance (clock : Clock m) (write : Record → m Unit) : Nat → Run σ → m (Run σ)
  | 0, r => pure r
  | n + 1, r =>
    match r.next? with
    | none => pure r
    | some move => do
      if move = .elapse then clock.sleep r.pause
      let r := (r.advanceTo (← clock.now)).act move
      r.log.reverse.forM write
      advance clock write n { r with log := [] }

/-- More moves than any run makes in practice. -/
def patience : Nat := 0x10000000000000000

/-- Carries a run through to its end. -/
def toEnd (clock : Clock m) (write : Record → m Unit) (r : Run σ) : m (Run σ) := do
  let r := r.advanceTo (← clock.now)
  r.advance clock write patience

end Dcpu16.Run
