import Dcpu16.Host.Run

/-! Steps of a run.  The host, each observer's thread and each task move one at a time, in any
order; a move is enabled once what it waits for is there.  The machine belongs to one of them at a
time. -/

namespace Dcpu16

/-- What can happen next in a run. -/
inductive Move where
  | host
  | observer (i : Nat)
  /-- The task of worker `i` takes the machine, or gives it back. -/
  | use (i : Nat)
  /-- The task of worker `i` returns since the run is over. -/
  | retire (i : Nat)
  /-- Time passes until the host's pause is over. -/
  | elapse
  /-- Shutdown is requested from outside. -/
  | request
  deriving DecidableEq, Repr

namespace Run

variable {σ : Type}

/-! ### The host -/

/-- Whether the host waits for nothing. -/
def hostEnabled (r : Run σ) : Bool :=
  match r.stage with
  | .starting | .checking | .announcing _ | .dismissing .. => true
  | .abandoning _ => r.workers.getLast?.all Worker.taskHasEnded
  | .gathering _ i _ => (r.workers[i]?).all fun w => !w.outbox.isEmpty || w.hasEnded
  | .ticking | .closing _ => r.holder.isNone
  | .pausing deadline => r.requested || deadline ≤ r.now
  | .joining i _ => (r.workers[i]?).all Worker.hasEnded
  | .joiningTask i _ => (r.workers[i]?).all Worker.taskHasEnded
  | .done _ => false

/-- Stops ticking: the tasks are told that the run is over. -/
def halt (r : Run σ) (cause : Cause) : Run σ :=
  { r with stop := true, elapsed := .ofNanos (r.now - r.runStart), stage := .dismissing 0 cause }

/-- Asks the system for a thread; the answer is why it refuses, if it does. -/
def takeThread (r : Run σ) : Option String × Run σ :=
  (r.refusal r.threads, { r with threads := r.threads + 1 })

/-- Starts an observer: first its task, then its own thread. -/
def launch [Observer σ] (r : Run σ) (o : σ) : Run σ :=
  let name := Observer.name o
  let task := (Observer.background o).map fun work => ({ work } : Task)
  let refused (reason : String) := HostError.spawn name reason
  match task with
  | none =>
    match r.takeThread with
    | (some reason, r) => r.halt (.error (refused reason))
    | (none, r) => { r with workers := r.workers ++ [{ name, observer := o }] }
  | some task =>
    match r.takeThread with
    | (some reason, r) => r.halt (.error (refused reason))
    | (none, r) =>
      match r.takeThread with
      | (some reason, r) =>
        { r with stop := true, stage := .abandoning (refused reason)
                 workers := r.workers ++ [{ name, observer := o, stage := .refused, task }] }
      | (none, r) => { r with workers := r.workers ++ [{ name, observer := o, task }] }

/-- Starts the next observer, or begins to gather the replies of all. -/
def startNext [Observer σ] (r : Run σ) : Run σ :=
  match r.pending with
  | [] => { r with stage := .gathering .start 0 none, runStart := r.now }
  | o :: rest => launch ({ r with pending := rest }.report (.starting (Observer.name o))) o

/-- Ends a tick to which every observer has replied: counts its time, and waits for the rest of the
period.  A sum too long for a duration, at which a host would panic, leaves the tally as it is; no
run gets there before its clock is past all durations (`record_of_follow`). -/
def settle (r : Run σ) : Run σ :=
  let elapsed := Duration.ofNanos (r.now - r.cycleStart)
  let r :=
    match r.tally.bind (·.record elapsed) with
    | some (tally, some summary) => { r with tally := some tally }.report (.timing summary)
    | some (tally, none) => { r with tally := some tally }
    | none => r
  let rest := r.pacer.remaining elapsed
  { r with stage := if rest = .zero then .checking else .pausing (r.now + rest.nanos) }

/-- Reads the reply of worker `i`. -/
def gather (r : Run σ) (round : Round) (i : Nat) (first : Option String) : Run σ :=
  match r.workers[i]? with
  | none =>
    match first, round with
    | some name, _ => r.halt (.ok (.observer name))
    | none, .start => { r with stage := .checking }
    | none, .tick => r.settle
  | some w =>
    match w.outbox with
    | [] => r.halt (.error (.observerLost w.name))
    | reply :: rest =>
      let r := r.modify i fun w => { w with outbox := rest }
      match reply with
      | .proceed => { r with stage := .gathering round (i + 1) first }
      | .shutdown =>
        { r with stage := .gathering round (i + 1) (some (first.getD w.name)) }.report
          (.requestedShutdown w.name)

/-- Stops if shutdown is requested, and begins a tick otherwise. -/
def check (r : Run σ) : Run σ :=
  if r.requested then r.halt (.ok .signal) else { r with stage := .ticking, cycleStart := r.now }

/-- Ticks the machine. -/
def tickMachine (r : Run σ) : Run σ :=
  if r.poisoned then r.halt (.error .poisoned)
  else
    match r.machine.tick with
    | .ok (_, machine) => { r with machine, ticks := r.ticks + 1, stage := .announcing 0 }
    | .error e => (r.report (.fault e)).halt (.error (.machine e))

/-- Announces a tick to worker `i`. -/
def announce (r : Run σ) (i : Nat) : Run σ :=
  match r.workers[i]? with
  | none => { r with stage := .gathering .tick 0 none }
  | some w =>
    if w.hasEnded then r.halt (.error (.observerLost w.name))
    else { r.modify i (·.tell .tick) with stage := .announcing (i + 1) }

/-- Tells worker `i` to stop. -/
def dismiss (r : Run σ) (i : Nat) (cause : Cause) : Run σ :=
  if i < r.workers.length then { r.modify i (·.tell .stop) with stage := .dismissing (i + 1) cause }
  else { r with stage := .joining 0 cause }

/-- Takes note of how the thread of worker `i` has ended. -/
def join (r : Run σ) (i : Nat) (cause : Cause) : Run σ :=
  match r.workers[i]? with
  | none => { r with stage := .closing cause }
  | some w =>
    let r := { r with stage := .joiningTask i cause }
    if w.stage = .ended true then r.report (.panicked w.name) else r

/-- Takes note of how the task of worker `i` has ended. -/
def joinTask (r : Run σ) (i : Nat) (cause : Cause) : Run σ :=
  let r := { r with stage := .joining (i + 1) cause }
  match r.workers[i]? with
  | none => r
  | some w =>
    if w.stage ≠ .refused ∧ w.task.any (·.stage = .ended true) then
      r.report (.backgroundPanicked w.name)
    else r

/-- Ends the run. -/
def close (r : Run σ) (cause : Cause) : Run σ :=
  match cause with
  | .error e => { r with stage := .done (.error e) }
  | .ok reason =>
    if r.poisoned then { r with stage := .done (.error .poisoned) }
    else
      let summary : RunSummary :=
        { cycles := r.machine.cycles, ticks := r.ticks, elapsed := r.elapsed, reason }
      { r with stage := .done (.ok summary) }.report (.stopped r.ticks r.elapsed reason)

/-- What the host does next. -/
def hostAct [Observer σ] (r : Run σ) : Run σ :=
  match r.stage with
  | .starting => r.startNext
  | .abandoning e => r.halt (.error e)
  | .gathering round i first => r.gather round i first
  | .checking => r.check
  | .ticking => r.tickMachine
  | .announcing i => r.announce i
  | .pausing _ => { r with stage := .checking }
  | .dismissing i cause => r.dismiss i cause
  | .joining i cause => r.join i cause
  | .joiningTask i cause => r.joinTask i cause
  | .closing cause => r.close cause
  | .done _ => r

/-! ### Observers -/

/-- Whether the thread of worker `i` waits for nothing. -/
def observerEnabled (r : Run σ) (i : Nat) : Bool :=
  (r.workers[i]?).any fun w =>
    match w.stage with
    | .starting | .ticked => r.holder.isNone
    | .waiting => !w.inbox.isEmpty
    | .inStart | .inTick | .answering _ | .leaving => true
    | .refused | .ended _ => false

/-- Worker `i` takes the machine for a callback.  With a machine that a panic has spoilt there is no
callback, and it counts as a request to stop. -/
def enter (r : Run σ) (i : Nat) (callback : Stage) : Run σ :=
  if r.poisoned then r.modify i fun w => { w with stage := .answering .shutdown }
  else { r.modify i fun w => { w with stage := callback } with holder := some (.observer i) }

/-- Worker `i` gives the machine back after a callback. -/
def leave (r : Run σ) (i : Nat) (name : String) (c : Callback σ) : Run σ :=
  let r := { r with machine := c.machine, holder := none }.notes name c.log
  match c.ending with
  | .reply reply => r.modify i fun w => { w with observer := c.observer, stage := .answering reply }
  | .panic =>
    { r.modify i fun w => { w with observer := c.observer, stage := .ended true } with
      poisoned := true }

/-- Worker `i` reads its next order. -/
def obey (r : Run σ) (i : Nat) (w : Worker σ) : Run σ :=
  match w.inbox with
  | [] => r
  | .tick :: rest => r.modify i fun w => { w with stage := .ticked, inbox := rest }
  | .stop :: rest => r.modify i fun w => { w with stage := .leaving, inbox := rest }

/-- What worker `i` does next. -/
def observerAct [Observer σ] (r : Run σ) (i : Nat) : Run σ :=
  match r.workers[i]? with
  | none => r
  | some w =>
    match w.stage with
    | .starting => r.enter i .inStart
    | .inStart => r.leave i w.name (Observer.onStart w.observer r.machine)
    | .answering reply =>
      r.modify i fun w => { w with stage := .waiting, outbox := w.outbox ++ [reply] }
    | .waiting => r.obey i w
    | .ticked => r.enter i .inTick
    | .inTick => r.leave i w.name (Observer.onTick w.observer r.machine)
    | .leaving =>
      let f := Observer.onShutdown w.observer
      (r.notes w.name f.log).modify i fun w =>
        { w with observer := f.observer, stage := .ended f.panics }
    | .refused | .ended _ => r

/-! ### Tasks -/

/-- Whether the task of worker `i` is in a stage that `p` accepts. -/
def taskIn (r : Run σ) (i : Nat) (p : TaskStage → Bool) : Bool :=
  (r.workers[i]?).any fun w => w.task.any fun t => p t.stage

/-- Changes the task of worker `i`. -/
def modifyTask (r : Run σ) (i : Nat) (f : Task → Task) : Run σ :=
  r.modify i fun w => { w with task := w.task.map f }

/-- The stage that a course leads to. -/
def Course.stage : Course → TaskStage
  | .continues => .apart
  | .returns => .ended false
  | .panics => .ended true

/-- The task of worker `i` takes the machine, or gives it back. -/
def useAct (r : Run σ) (i : Nat) : Run σ :=
  match (r.workers[i]?).bind Worker.task with
  | none => r
  | some t =>
    match t.stage with
    | .apart =>
      if r.poisoned then r.modifyTask i fun t => { t with stage := Course.stage t.work.spoilt }
      else { r.modifyTask i fun t => { t with stage := .inUse } with holder := some (.task i) }
    | .inUse =>
      let (machine, course) := t.work.use t.uses r.machine
      { r.modifyTask i fun t => { t with stage := Course.stage course, uses := t.uses + 1 } with
        machine, holder := none, poisoned := r.poisoned || course = .panics }
    | .ended _ => r

/-- The task of worker `i` returns. -/
def retireAct (r : Run σ) (i : Nat) : Run σ :=
  r.modifyTask i fun t => { t with stage := .ended t.work.panics }

/-! ### Steps -/

/-- Whether a move can happen. -/
def enabled (r : Run σ) : Move → Bool
  | .host => r.hostEnabled
  | .observer i => r.observerEnabled i
  | .use i => r.taskIn i fun s => s = .inUse || (s = .apart && r.holder.isNone)
  | .retire i => r.stop && r.taskIn i (· = .apart)
  | .elapse =>
    match r.stage with
    | .pausing deadline => !r.requested && r.now < deadline
    | _ => false
  | .request => !r.requested

/-- What a move does. -/
def act [Observer σ] (r : Run σ) : Move → Run σ
  | .host => r.hostAct
  | .observer i => r.observerAct i
  | .use i => r.useAct i
  | .retire i => r.retireAct i
  | .elapse =>
    match r.stage with
    | .pausing deadline => r.advanceTo deadline
    | _ => r
  | .request => { r with requested := true }

/-- The run after a move, if the move can happen. -/
def step [Observer σ] (r : Run σ) (move : Move) : Option (Run σ) :=
  if r.enabled move then some (r.act move) else none

end Run

end Dcpu16
