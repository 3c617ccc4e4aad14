import Dcpu16.Host.Step

/-! Traces of runs.  A run is followed through any moves at any times, in which host, observers and
tasks take the machine and give it back and observers answer.  Beside the trace stands what it is
measured by: the script of an observer, and a ledger in which the uses of the machine are carried
out one after another. -/

namespace Dcpu16

/-- One use of the machine, from taking it to giving it back. -/
inductive Section where
  | tick
  /-- The first callback of observer `i`. -/
  | onStart (i : Nat)
  /-- The callback of observer `i` after a tick. -/
  | onTick (i : Nat)
  /-- A use by the task of worker `i`. -/
  | use (i : Nat)
  deriving DecidableEq, Repr

/-- What can be seen of a run from outside. -/
inductive Mark where
  | takes (s : Section)
  | gives (s : Section)
  /-- Observer `i` answers the host. -/
  | answers (i : Nat) (reply : Reply)
  deriving DecidableEq, Repr

namespace Run

variable {σ : Type} [Observer σ]

/-! ### Following a run -/

/-- The marks that a move leaves; a machine that a panic has spoilt is not taken. -/
def marks (r : Run σ) : Move → List Mark
  | .host =>
    match r.stage with
    | .ticking => if r.poisoned then [] else [.takes .tick, .gives .tick]
    | _ => []
  | .observer i =>
    match (r.workers[i]?).map Worker.stage with
    | some .starting => if r.poisoned then [] else [.takes (.onStart i)]
    | some .inStart => [.gives (.onStart i)]
    | some (.answering reply) => [.answers i reply]
    | some .ticked => if r.poisoned then [] else [.takes (.onTick i)]
    | some .inTick => [.gives (.onTick i)]
    | _ => []
  | .use i =>
    match ((r.workers[i]?).bind Worker.task).map Task.stage with
    | some .apart => if r.poisoned then [] else [.takes (.use i)]
    | some .inUse => [.gives (.use i)]
    | _ => []
  | _ => []

/-- The run after some moves, each at its time, with the marks that they leave. -/
def follow (r : Run σ) : List (Nat × Move) → Option (List Mark × Run σ)
  | [] => some ([], r)
  | (now, move) :: moves => do
    let r := r.advanceTo now
    let (ms, r') ← (← r.step move).follow moves
    return (r.marks move ++ ms, r')

/-- A run that has not begun; shutdown may be requested already. -/
structure Fresh (r : Run σ) : Prop where
  stage : r.stage = .starting
  workers : r.workers = []
  holder : r.holder = none
  sound : r.poisoned = false
  stop : r.stop = false
  ticks : r.ticks = 0

omit [Observer σ] in
theorem fresh_of_start {machine : Machine} {frequency : Float} {reportInterval : Nat}
    {observers : List σ} {r : Run σ}
    (h : start machine frequency reportInterval observers = .ok r) :
    r.Fresh ∧ r.machine = machine ∧ r.pending = observers ∧
      ∀ t ∈ r.tally, t = .ofInterval reportInterval := by
  unfold start at h
  split at h
  · cases h
  · cases h
    refine ⟨⟨rfl, rfl, rfl, rfl, rfl, rfl⟩, rfl, rfl, fun t ht => ?_⟩
    dsimp only at ht
    split at ht
    · cases ht
    · exact (Option.some.inj ht).symm

end Run

/-- Callbacks and tasks that never panic while they have the machine. -/
structure Calm (σ : Type) [Observer σ] : Prop where
  onStart (o : σ) (m : Machine) : (Observer.onStart o m).ending ≠ .panic
  onTick (o : σ) (m : Machine) : (Observer.onTick o m).ending ≠ .panic
  use (o : σ) (work : Background) (n : Nat) (m : Machine) :
    Observer.background o = some work → (work.use n m).2 ≠ .panics

/-! ### What a trace is measured by -/

def Section.concerns (i : Nat) : Section → Bool
  | tick => true
  | onStart j | onTick j => j = i
  | use _ => false

/-- The mark tells of a tick or of a callback of observer `i`. -/
def Mark.concerns (i : Nat) : Mark → Bool
  | takes s | gives s => s.concerns i
  | answers .. => false

/-- The ticks and the callbacks of observer `i` in a trace. -/
def view (i : Nat) (ms : List Mark) : List Mark := ms.filter (Mark.concerns i)

/-- The uses of the machine in the order in which it was taken. -/
def taken (ms : List Mark) : List Section :=
  ms.filterMap fun | .takes s => some s | _ => none

/-- The uses of the machine that are over. -/
def given (ms : List Mark) : List Section :=
  ms.filterMap fun | .gives s => some s | _ => none

/-- The marks of a use of the machine. -/
def Section.marks (s : Section) : List Mark := [.takes s, .gives s]

/-- What observer `i` is to see of a run with `n` ticks: its first callback, and then every tick
with one callback after it. -/
def script (i : Nat) : Nat → List Mark
  | 0 => (Section.onStart i).marks
  | n + 1 => script i n ++ Section.tick.marks ++ (Section.onTick i).marks

/-- An observer, the work beside it, and how often that work has had the machine. -/
structure Party (σ : Type) where
  observer : σ
  work : Option Background
  uses : Nat := 0

/-- The machine with all that use it, one at a time. -/
structure Ledger (σ : Type) where
  machine : Machine
  parties : List (Party σ)

namespace Ledger

variable {σ : Type} [Observer σ]

/-- The ledger before any use. -/
def start (machine : Machine) (observers : List σ) : Ledger σ where
  machine
  parties := observers.map fun o => { observer := o, work := Observer.background o }

def callback (l : Ledger σ) (i : Nat) (f : σ → Machine → Callback σ) : Ledger σ :=
  match l.parties[i]? with
  | none => l
  | some p =>
    let c := f p.observer l.machine
    { machine := c.machine, parties := l.parties.modify i ({ · with observer := c.observer }) }

def perform (l : Ledger σ) : Section → Ledger σ
  | .tick =>
    match l.machine.tick with
    | .ok (_, machine) => { l with machine }
    | .error _ => l
  | .onStart i => l.callback i Observer.onStart
  | .onTick i => l.callback i Observer.onTick
  | .use i =>
    match l.parties[i]? with
    | some { work := some work, uses := n, .. } =>
      { machine := (work.use n l.machine).1
        parties := l.parties.modify i ({ · with uses := n + 1 }) }
    | _ => l

/-- The ledger after the uses of the machine that are over in a trace. -/
def replay (l : Ledger σ) (ms : List Mark) : Ledger σ := (given ms).foldl perform l

end Ledger

end Dcpu16
