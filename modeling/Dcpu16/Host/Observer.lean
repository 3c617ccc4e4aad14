import Dcpu16.Machine.State

/-! Observers.  An observer looks at the machine, and may change it, once before the first tick and
once after every tick.  Each observer runs on a thread of its own; the machine is handed to one at a
time. -/

namespace Dcpu16

/-- What an observer wants next. -/
inductive Reply where
  | proceed
  | shutdown
  deriving DecidableEq, Repr

/-- How a callback ends: with a reply, or by a panic that ends its thread. -/
inductive Ending where
  | reply (r : Reply)
  | panic
  deriving DecidableEq, Repr

/-- What a callback does: the observer and the machine after it, the lines that it logs, and how it
ends. -/
structure Callback (σ : Type) where
  observer : σ
  machine : Machine
  log : List String := []
  ending : Ending := .reply .proceed

/-- What an observer does once no more ticks follow. -/
structure Farewell (σ : Type) where
  observer : σ
  log : List String := []
  panics : Bool := false

/-- What becomes of a background task after it had the machine. -/
inductive Course where
  | continues
  | returns
  | panics
  deriving DecidableEq, Repr

/-- Work beside the ticks.  It may take the machine any number of times between other uses, and has
to return once the run is over. -/
structure Background where
  /-- The `n`-th use of the machine. -/
  use : Nat → Machine → Machine × Course := fun _ m => (m, .continues)
  /-- What the task does when it finds that a panic has spoilt the machine. -/
  spoilt : Course := .continues
  /-- Whether the task panics instead of returning. -/
  panics : Bool := false

/-- What the values of a type do as observers. -/
class Observer (σ : Type) where
  name : σ → String
  /-- Runs before the first tick. -/
  onStart : σ → Machine → Callback σ := fun o m => { observer := o, machine := m }
  /-- Runs after each tick, before the next one begins. -/
  onTick : σ → Machine → Callback σ
  onShutdown : σ → Farewell σ := fun o => { observer := o }
  background : σ → Option Background := fun _ => none

end Dcpu16
