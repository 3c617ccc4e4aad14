/-! Shutdown signals.  A signal is raised once and stays raised; every handle to it sees that, and a
sleeper that holds one wakes. -/

namespace Dcpu16

/-- Signals and the handles to them. -/
structure Signals where
  /-- Whether each signal is raised. -/
  raised : List Bool := []
  /-- The signal behind each handle. -/
  handles : List Nat := []
  deriving DecidableEq, Repr

namespace Signals

/-- Makes a signal that is not raised, with one handle. -/
def fresh (s : Signals) : Signals where
  raised := s.raised ++ [false]
  handles := s.handles ++ [s.raised.length]

/-- Adds a handle to the signal behind a handle. -/
def share (s : Signals) (handle : Nat) : Signals :=
  { s with handles := s.handles ++ (s.handles[handle]?).toList }

/-- Raises the signal behind a handle. -/
def request (s : Signals) (handle : Nat) : Signals :=
  match s.handles[handle]? with
  | some i => { s with raised := s.raised.set i true }
  | none => s

/-- Whether the signal behind a handle is raised; so answers a sleeper too once it wakes. -/
def isRequested (s : Signals) (handle : Nat) : Bool :=
  match s.handles[handle]? with
  | some i => s.raised[i]?.getD false
  | none => false

/-- What each handle sees. -/
def view (s : Signals) : List Bool := (List.range s.handles.length).map s.isRequested

/-- The state of the signal behind a handle as a one-line summary. -/
def summary (s : Signals) (handle : Nat) : String :=
  let requested := if s.isRequested handle then "true" else "false"
  s!"ShutdownSignal \x7b requested: {requested} \x7d"

end Signals

end Dcpu16
