import Dcpu16.Host.Builtin
import Dcpu16.Host.Error
import Dcpu16.Settings

/-! The registry of observers: names with the observers that settings give them.  Names are kept in
order and without repetition; a later registration of a name replaces the earlier one. -/

namespace Dcpu16

/-- Observers by name. -/
structure Registry (σ : Type) where
  entries : List (String × (Settings → σ)) := []

namespace Registry

variable {σ τ : Type}

/-- Puts an entry in its place in a list ordered by name. -/
def insert (name : String) (make : Settings → σ) :
    List (String × (Settings → σ)) → List (String × (Settings → σ))
  | [] => [(name, make)]
  | (other, f) :: rest =>
    if name < other then (name, make) :: (other, f) :: rest
    else if name = other then (name, make) :: rest
    else (other, f) :: insert name make rest

/-- Adds or replaces an observer. -/
def register (r : Registry σ) (name : String) (make : Settings → σ) : Registry σ :=
  ⟨insert name make r.entries⟩

/-- The registered names in order. -/
def names (r : Registry σ) : List String := r.entries.map Prod.fst

def contains (r : Registry σ) (name : String) : Bool := r.names.contains name

/-- Makes the observer of a name. -/
def create (r : Registry σ) (name : String) (s : Settings) : Except HostError σ :=
  match r.entries.lookup name with
  | some make => .ok (make s)
  | none => .error (.unknownObserver name)

/-- Makes the observers that the settings name, in their order. -/
def createAll (r : Registry σ) (s : Settings) : Except HostError (List σ) :=
  s.observers.mapM fun name => r.create name s

/-- The registry with every observer passed through `f`. -/
def map (f : σ → τ) (r : Registry σ) : Registry τ :=
  ⟨r.entries.map fun (name, make) => (name, fun s => f (make s))⟩

/-- The observers that come with the emulator. -/
def builtins : Registry Builtin :=
  ({} : Registry Builtin)
    |>.register "trace" (fun _ => .trace)
    |>.register "loop-detect" (fun _ => .loopDetect none)
    |>.register "cycle-limit" (fun s => .cycleLimit (s.maxCycles.getD Builtin.defaultLimit))

end Registry

end Dcpu16
