import Dcpu16.Decimal.Fixed
import Dcpu16.Host.Error
import Dcpu16.Pace.Tally

/-! Records of a run: what the host and the observers report while it goes on. -/

namespace Dcpu16

/-- How serious a record is. -/
inductive Level where
  | info
  | warn
  | error
  deriving DecidableEq, Repr

def Level.name : Level → String
  | info => "INFO"
  | warn => "WARN"
  | error => "ERROR"

/-- What a record says. -/
inductive Event where
  | starting (name : String)
  | requestedShutdown (name : String)
  | timing (s : Tally.Summary)
  | fault (e : Fault)
  | panicked (name : String)
  | backgroundPanicked (name : String)
  | stopped (ticks : Nat) (elapsed : Duration) (reason : StopReason)
  /-- A line that an observer writes. -/
  | note (line : String)

namespace Event

def level : Event → Level
  | panicked _ | backgroundPanicked _ => .warn
  | fault _ => .error
  | _ => .info

def message : Event → String
  | starting name => s!"starting observer {name}"
  | requestedShutdown name => s!"observer {name} requested shutdown"
  | timing s =>
    s!"{s.ticks} ticks took {s.total.text}, average {s.average.text} " ++
      s!"(max {Decimal.fixed 0 s.maxFrequency} Hz)"
  | fault e => s!"fatal CPU fault: {e.message}"
  | panicked name => s!"observer {name} panicked"
  | backgroundPanicked name => s!"background task of observer {name} panicked"
  | stopped ticks elapsed reason =>
    s!"stopped after {ticks} ticks in {elapsed.text}: {reason.text}"
  | note line => line

end Event

/-- An event and the observer on whose thread it was written; the host's own have none. -/
structure Record where
  observer : Option String
  event : Event

/-- The name of the thread that wrote a record. -/
def Record.thread (r : Record) : String :=
  match r.observer with
  | some name => s!"observer-{name}"
  | none => "main"

end Dcpu16
