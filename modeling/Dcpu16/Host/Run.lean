import Dcpu16.Host.Record
import Dcpu16.Host.Worker
import Dcpu16.Pace.Pacer

/-! Runs: the state of a host with its observers' threads, from the start of the first thread to the
end of the last.  The host ticks the machine, announces the tick to every observer, reads a reply
from each of them in turn and waits for the rest of the period; when it stops, it tells every thread
to stop and waits for them all. -/

namespace Dcpu16

/-- What a run that ends well has done. -/
structure RunSummary where
  /-- The machine's count of ticks at the end. -/
  cycles : UInt64
  /-- The ticks of this run. -/
  ticks : Nat
  elapsed : Duration
  reason : StopReason

/-- The replies that the host gathers. -/
inductive Round where
  /-- Those to the first callback. -/
  | start
  /-- Those to a tick. -/
  | tick
  deriving DecidableEq, Repr

/-- Why the host is stopping. -/
abbrev Cause := Except HostError StopReason

/-- Where the host is. -/
inductive HostStage where
  /-- Observers are being started. -/
  | starting
  /-- The system has refused the thread of the latest observer, whose task has to end first. -/
  | abandoning (e : HostError)
  /-- The next reply is that of worker `i`; `first` has asked to stop before. -/
  | gathering (round : Round) (i : Nat) (first : Option String)
  /-- The host is about to look whether shutdown is requested. -/
  | checking
  | ticking
  /-- The tick is about to be announced to worker `i`. -/
  | announcing (i : Nat)
  /-- The host waits until this time, or until shutdown is requested. -/
  | pausing (deadline : Nat)
  /-- Worker `i` is about to be told to stop. -/
  | dismissing (i : Nat) (cause : Cause)
  /-- The host waits for the thread of worker `i` to end. -/
  | joining (i : Nat) (cause : Cause)
  /-- The host waits for the task of worker `i` to end. -/
  | joiningTask (i : Nat) (cause : Cause)
  /-- Every thread is over. -/
  | closing (cause : Cause)
  | done (result : Except HostError RunSummary)

/-- Who has the machine, the host's own use apart. -/
inductive Holder where
  | observer (i : Nat)
  | task (i : Nat)
  deriving DecidableEq, Repr

/-- The state of a run. -/
structure Run (σ : Type) where
  machine : Machine
  pacer : Pacer
  /-- The timing of ticks, if it is reported. -/
  tally : Option Tally := none
  /-- The observers that have not been started. -/
  pending : List σ := []
  workers : List (Worker σ) := []
  stage : HostStage := .starting
  holder : Option Holder := none
  /-- A thread has panicked while it had the machine. -/
  poisoned : Bool := false
  /-- Shutdown is requested from outside. -/
  requested : Bool := false
  /-- The host has stopped ticking. -/
  stop : Bool := false
  ticks : Nat := 0
  /-- The time, in nanoseconds. -/
  now : Nat := 0
  runStart : Nat := 0
  cycleStart : Nat := 0
  /-- The time from the start to the last tick. -/
  elapsed : Duration := .zero
  /-- What has been reported, the latest first. -/
  log : List Record := []
  /-- The number of threads that the system was asked for. -/
  threads : Nat := 0
  /-- Why the system refuses its `n`-th thread, if it does. -/
  refusal : Nat → Option String := fun _ => none

namespace Run

variable {σ : Type}

/-- A run that has not begun. -/
def start (machine : Machine) (frequency : Float) (reportInterval : Nat) (observers : List σ) :
    Except HostError (Run σ) :=
  match Pacer.ofFrequency? frequency with
  | none => .error (.invalidFrequency frequency)
  | some pacer =>
    .ok { machine, pacer, pending := observers
          tally := if reportInterval = 0 then none else some (.ofInterval reportInterval) }

/-- The result of a run that is over. -/
def result? (r : Run σ) : Option (Except HostError RunSummary) :=
  match r.stage with
  | .done result => some result
  | _ => none

/-- The run at a later time. -/
def advanceTo (r : Run σ) (now : Nat) : Run σ := { r with now := max r.now now }

/-- Adds a record of the host. -/
def report (r : Run σ) (event : Event) : Run σ := { r with log := ⟨none, event⟩ :: r.log }

/-- Adds the lines that an observer has written. -/
def notes (r : Run σ) (name : String) (lines : List String) : Run σ :=
  { r with log := lines.foldl (fun log line => ⟨some name, .note line⟩ :: log) r.log }

/-- Changes worker `i`. -/
def modify (r : Run σ) (i : Nat) (f : Worker σ → Worker σ) : Run σ :=
  { r with workers := r.workers.modify i f }

end Run

end Dcpu16
