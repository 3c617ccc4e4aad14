import Dcpu16.Decimal.Style
import Dcpu16.Machine.State
import Dcpu16.Text.Escaped

/-! How a run ends: why it stops, and why it fails. -/

namespace Dcpu16

/-- Why the host stopped ticking. -/
inductive StopReason where
  /-- Shutdown was requested from outside. -/
  | signal
  /-- The observer of this name asked for it. -/
  | observer (name : String)
  deriving DecidableEq, Repr

def StopReason.text : StopReason → String
  | signal => "Signal"
  | observer name => s!"Observer({Text.escaped name})"

/-- Why a run cannot start or does not end well. -/
inductive HostError where
  | invalidFrequency (hz : Float)
  | unknownObserver (name : String)
  /-- The system refuses a thread for an observer. -/
  | spawn (name reason : String)
  /-- The thread of an observer has ended without an answer. -/
  | observerLost (name : String)
  /-- A thread panicked while it held the machine. -/
  | poisoned
  | machine (e : Fault)

def HostError.message : HostError → String
  | invalidFrequency hz => s!"invalid frequency: {Decimal.messageText hz} Hz"
  | unknownObserver name => s!"unknown observer: {name}"
  | spawn name reason => s!"failed to start observer {name}: {reason}"
  | observerLost name => s!"observer {name} stopped responding"
  | poisoned => "cpu lock poisoned by a panicking observer"
  | machine e => e.message

end Dcpu16
