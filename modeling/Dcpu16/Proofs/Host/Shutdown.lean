import Dcpu16.Host.Builtin
import Dcpu16.Proofs.Host.Progress

/-! Runs end in order, by whatever way they end and whoever panics: the host gets to its end, every
thread that has been started is over then, and has run its last callback once, after all others. -/

namespace Dcpu16

variable {σ : Type}

/-! ### The callbacks of a thread -/

/-- A callback that is over, and whether it panicked. -/
inductive Call where
  | callback (round : Round) (panicked : Bool)
  /-- The last one. -/
  | farewell (panicked : Bool)
  deriving DecidableEq, Repr

/-- The callback that is over with the next move of a thread, if it is in one. -/
def Worker.call? [Observer σ] (w : Worker σ) (m : Machine) : Option Call :=
  match w.stage with
  | .inStart => some (.callback .start ((Observer.onStart w.observer m).ending = .panic))
  | .inTick => some (.callback .tick ((Observer.onTick w.observer m).ending = .panic))
  | .leaving => some (.farewell (Observer.onShutdown w.observer).panics)
  | _ => none

namespace Run

variable [Observer σ]

/-- The callback of worker `i` that is over with a move, if there is one. -/
def calls (r : Run σ) (i : Nat) : Move → List Call
  | .observer j => if i = j then ((r.workers[i]?).bind (·.call? r.machine)).toList else []
  | _ => []

/-- The callbacks of worker `i` in the course of some moves, the first one first. -/
def history (r : Run σ) (i : Nat) : List (Nat × Move) → List Call
  | [] => []
  | (now, move) :: moves =>
    let r := r.advanceTo now
    match r.step move with
    | none => []
    | some r' => r.calls i move ++ r'.history i moves

end Run

/-- A callback that has returned to a thread that goes on. -/
def Call.GoesOn : Call → Prop
  | callback _ panicked => panicked = false
  | farewell _ => False

/-- The callbacks go with the stage of the thread: it is over once one of them has not gone on. -/
def Worker.Lives (w : Worker σ) (calls : List Call) : Prop :=
  match w.stage with
  | .refused => calls = []
  | .ended _ => ∃ earlier last, calls = earlier ++ [last] ∧ (∀ c ∈ earlier, c.GoesOn) ∧ ¬last.GoesOn
  | _ => ∀ c ∈ calls, c.GoesOn

namespace Worker

variable {w w' : Worker σ} {calls : List Call}

theorem Lives.rests (h : w.Lives calls) (hstage : w'.stage = w.stage) : w'.Lives calls := by
  rwa [Lives, hstage]

theorem lives_iff (hended : w.hasEnded = false) : w.Lives calls ↔ ∀ c ∈ calls, c.GoesOn := by
  unfold Lives
  cases hstage : w.stage <;> simp_all [hasEnded]

theorem lives_of_ended {panicked : Bool} {last : Call} (hstage : w.stage = .ended panicked)
    (hcalls : ∀ c ∈ calls, c.GoesOn) (hlast : ¬last.GoesOn) : w.Lives (calls ++ [last]) := by
  rw [Lives, hstage]
  exact ⟨calls, last, rfl, hcalls, hlast⟩

/-- A thread that is over without a panic in a callback before has said farewell. -/
theorem Lives.farewell (h : w.Lives calls) (hended : w.hasEnded = true)
    (hstarted : w.stage ≠ .refused) (hcalm : ∀ round, .callback round true ∉ calls) :
    ∃ earlier panicked, calls = earlier ++ [.farewell panicked] ∧
      ∀ c ∈ earlier, ∃ round, c = .callback round false := by
  obtain ⟨panicked, hstage⟩ : ∃ panicked, w.stage = .ended panicked := by
    cases hstage : w.stage <;> simp_all [hasEnded]
  rw [Lives, hstage] at h
  obtain ⟨earlier, last, rfl, hearlier, hlast⟩ := h
  cases last with
  | callback round panicked =>
    obtain rfl : panicked = true := by simpa [Call.GoesOn] using hlast
    exact absurd (by simp) (hcalm round)
  | farewell panicked =>
    refine ⟨earlier, panicked, rfl, fun c hc => ?_⟩
    cases c with
    | callback round panicked => exact ⟨round, by rw [show panicked = false from hearlier _ hc]⟩
    | farewell => exact (hearlier _ hc).elim

theorem call?_of_before [Observer σ] {round : Round} {m : Machine} (h : w.stage = round.before) :
    w.call? m = none := by
  cases round <;> simp [call?, h, Round.before]

theorem call?_of_during [Observer σ] {round : Round} {m : Machine} (h : w.stage = round.during) :
    w.call? m = some (.callback round ((round.run w.observer m).ending = .panic)) := by
  cases round <;> simp only [call?, h, Round.during] <;> rfl

end Worker

namespace Run

variable {r r' : Run σ} {ms new : List Mark} {i : Nat} {w : Worker σ} {calls : List Call}
  {move : Move}

/-- Worker `i`, if there is one, has run these callbacks. -/
structure Lives (r : Run σ) (i : Nat) (calls : List Call) : Prop where
  worker (w : Worker σ) : r.workers[i]? = some w → w.Lives calls
  absent : r.workers[i]? = none → calls = []

/-- A change that leaves the thread of worker `i` where it is. -/
theorem Lives.modify {j : Nat} {f : Worker σ → Worker σ} (h : r.Lives i calls)
    (hworkers : r'.workers = (r.modify j f).workers)
    (hf : j = i → ∀ w : Worker σ, (f w).stage = w.stage) : r'.Lives i calls := by
  refine ⟨fun w' hw' => ?_, fun hnone => h.absent ?_⟩
  · obtain ⟨w, hw, rfl⟩ := getElem?_modify_eq_some (hworkers ▸ hw')
    refine (h.worker w hw).rests ?_
    split
    · next hij => exact hf hij w
    · rfl
  · rw [hworkers, List.getElem?_eq_none_iff, length_workers_modify] at hnone
    exact List.getElem?_eq_none_iff.mpr hnone

variable [Observer σ]

theorem Lives.hostMove (h : r.Lives i calls) (hmove : r.HostMove new r') : r'.Lives i calls := by
  refine ⟨fun w' hw' => ?_, fun hnone => h.absent ?_⟩
  · cases hmove.found hw' with
    | resting hw hrests => exact (h.worker _ hw).rests hrests.stage
    | hired hi _ _ _ _ hstage =>
      rw [h.absent (List.getElem?_eq_none_iff.mpr (Nat.le_of_eq hi.symm))]
      rcases hstage with hstage | hstage <;> simp [Worker.Lives, hstage]
  · cases hw : r.workers[i]? with
    | none => rfl
    | some w =>
      obtain ⟨w', hw', -⟩ := hmove.kept hw
      cases hw'.symm.trans hnone

theorem Lives.observerMove (h : r.Lives i calls) (hw : r.workers[i]? = some w)
    (hmove : r.ObserverMove i w new r') :
    r'.Lives i (calls ++ (w.call? r.machine).toList) := by
  -- Until now every callback has gone on; only a panic and a farewell end the thread.
  have hlives := (Worker.lives_iff hmove.not_hasEnded).mp (h.worker w hw)
  have hchange {f : Worker σ → Worker σ} (hworkers : r'.workers = (r.modify i f).workers)
      (hf : (f w).Lives (calls ++ (w.call? r.machine).toList)) :
      r'.Lives i (calls ++ (w.call? r.machine).toList) := by
    have hself : r'.workers[i]? = some (f w) := by
      rw [hworkers, getElem?_modify_of_eq_some hw, if_pos rfl]
    refine ⟨fun w' hw' => ?_, fun hnone => ?_⟩
    · obtain rfl := Option.some.inj (hself.symm.trans hw')
      exact hf
    · cases hself.symm.trans hnone
  have hquiet {w' : Worker σ} (hcall : w.call? r.machine = none) (hended : w'.hasEnded = false) :
      w'.Lives (calls ++ (w.call? r.machine).toList) := by
    rw [Worker.lives_iff hended, hcall]
    simpa using hlives
  cases hmove with
  | enter hstage =>
    exact hchange rfl (hquiet (Worker.call?_of_before hstage) (Worker.not_hasEnded_of_during rfl))
  | decline hstage => exact hchange rfl (hquiet (Worker.call?_of_before hstage) rfl)
  | answer hstage | hear hstage | obey hstage =>
    exact hchange rfl (hquiet (by simp [Worker.call?, hstage]) rfl)
  | leave hstage hend =>
    refine hchange rfl ((Worker.lives_iff rfl).mpr ?_)
    rw [Worker.call?_of_during hstage, hend]
    intro c hc
    rcases List.mem_append.mp hc with hc | hc
    · exact hlives c hc
    · obtain rfl : c = _ := by simpa using hc
      simp [Call.GoesOn]
  | panic hstage hend =>
    refine hchange rfl ?_
    rw [Worker.call?_of_during hstage, hend]
    exact Worker.lives_of_ended rfl hlives (by simp [Call.GoesOn])
  | depart hstage =>
    refine hchange rfl ?_
    rw [show w.call? r.machine = some (.farewell (Observer.onShutdown w.observer).panics) by
      simp [Worker.call?, hstage]]
    exact Worker.lives_of_ended rfl hlives (by simp [Call.GoesOn])

/-- What a thread has run by a move goes with the stage that the move leaves it in. -/
theorem Lives.moved (h : r.Lives i calls) (hmoved : r.Moved move new r') :
    r'.Lives i (calls ++ r.calls i move) := by
  cases hmoved with
  | host hmove =>
    simp only [Run.calls, List.append_nil]
    exact h.hostMove hmove
  | @observer j w _ _ hw hmove =>
    simp only [Run.calls]
    by_cases hij : i = j
    · subst hij
      rw [if_pos rfl, hw, Option.bind_some]
      exact h.observerMove hw hmove
    · rw [if_neg hij, List.append_nil]
      cases hmove <;> exact h.modify rfl fun hji => absurd hji.symm hij
  | use hw ht hmove =>
    simp only [Run.calls, List.append_nil]
    cases hmove <;> exact h.modify rfl fun _ _ => rfl
  | retire =>
    simp only [Run.calls, List.append_nil]
    exact h.modify rfl fun _ _ => rfl
  | elapse | request =>
    simp only [Run.calls, List.append_nil]
    exact ⟨h.worker, h.absent⟩

theorem Lives.follow {moves : List (Nat × Move)} (h : r.Lives i calls)
    (hfollow : r.follow moves = some (ms, r')) : r'.Lives i (calls ++ r.history i moves) := by
  induction moves generalizing r ms calls with
  | nil =>
    obtain ⟨-, rfl⟩ := Prod.mk.inj (Option.some.inj hfollow)
    rwa [history, List.append_nil]
  | cons move moves ih =>
    obtain ⟨next, rest, hnext, hrest, -⟩ := follow_cons.mp hfollow
    have hnow : (r.advanceTo move.1).Lives i calls := ⟨h.worker, h.absent⟩
    have hend := ih (hnow.moved (moved_of_step hnext)) hrest
    rw [List.append_assoc] at hend
    simpa only [history, hnext] using hend

/-! ### Requests from outside -/

/-- The ticks that can begin from a stage on once shutdown is requested. -/
def ticksLeft (r : Run σ) : Nat :=
  match r.stage with
  | .ticking => 1
  | _ => 0

theorem Moved.ticksLeft_le (hmoved : r.Moved move new r') (hrequested : r.requested = true) :
    new.count (.takes .tick) + r'.ticksLeft ≤ r.ticksLeft := by
  cases hmoved with
  | host hmove =>
    cases hmove with
    | go _ hquiet => cases hquiet.symm.trans hrequested
    | tick hstage => simp [ticksLeft, hstage]
    | launch hstage => simp [ticksLeft, hstage]
    | settle _ _ hnext => rcases hnext with rfl | ⟨deadline, rfl⟩ <;> simp [ticksLeft]
    | _ => simp [ticksLeft, halt]
  | observer _ hmove =>
    rw [List.count_eq_zero.mpr hmove.not_takes_tick, Nat.zero_add]
    cases hmove <;> exact Nat.le_refl _
  | use _ _ hmove => cases hmove <;> simp [ticksLeft, modifyTask, modify]
  | retire => simp [ticksLeft, modifyTask, modify]
  | elapse | request => simp [ticksLeft, advanceTo]

theorem count_takes_tick_le {moves : List (Nat × Move)} (hrequested : r.requested = true)
    (hfollow : r.follow moves = some (ms, r')) : ms.count (.takes .tick) ≤ r.ticksLeft := by
  induction moves generalizing r ms with
  | nil =>
    obtain ⟨rfl, -⟩ := Prod.mk.inj (Option.some.inj hfollow)
    exact Nat.zero_le _
  | cons move moves ih =>
    obtain ⟨next, rest, hnext, hrest, rfl⟩ := follow_cons.mp hfollow
    have hmoved := moved_of_step hnext
    have hlater : next.requested = true := by
      rw [hmoved.requested_eq]
      simp [advanceTo, hrequested]
    have hfirst := hmoved.ticksLeft_le (r := r.advanceTo move.1) hrequested
    have hothers := ih hlater hrest
    rw [List.count_append]
    calc _ ≤ (r.advanceTo move.1).ticksLeft := by omega
      _ = r.ticksLeft := rfl

/-! ### The end of a run -/

/-- What holds of a run that may be over, in the course of these moves. -/
structure EndsInOrder (r₀ : Run σ) (moves : List (Nat × Move)) (r : Run σ) : Prop where
  /-- Until the run is over somebody can move, whether shutdown is requested or not. -/
  goesOn : r.result? = none → ∃ move, move ≠ .request ∧ r.enabled move = true
  /-- Whatever the host waits for, the others can get it to its next move. -/
  served : r.result? = none → ∃ later ms r', (∀ p ∈ later, p.2 ≠ .host ∧ p.2 ≠ .request) ∧
    r.follow later = some (ms, r') ∧ r'.enabled .host = true
  /-- When the run is over, all tasks have been told so, -/
  stopped : r.result?.isSome = true → r.stop = true
  /-- every thread and every task is over, -/
  ended (i : Nat) (w : Worker σ) : r.result?.isSome = true → r.workers[i]? = some w →
    w.hasEnded = true ∧ w.taskHasEnded = true
  /-- and a thread that was started and has not panicked in a callback before has run its last
  callback once, after all others. -/
  farewell (i : Nat) (w : Worker σ) : r.result?.isSome = true → r.workers[i]? = some w →
    w.stage ≠ .refused → (∀ round, .callback round true ∉ r₀.history i moves) →
    ∃ earlier panicked, r₀.history i moves = earlier ++ [.farewell panicked] ∧
      ∀ c ∈ earlier, ∃ round, c = .callback round false
  /-- Once shutdown is requested, one tick may begin that the host was about to make. -/
  heeded : r.requested = true → ∀ later ms r', r.follow later = some (ms, r') →
    ms.count (.takes .tick) ≤ 1

/-- Whatever moves happen at whatever times, and whatever callbacks and tasks do, a run ends in
order. -/
theorem endsInOrder_of_follow {r₀ : Run σ} {moves : List (Nat × Move)} (hfresh : r₀.Fresh)
    (hfollow : r₀.follow moves = some (ms, r)) : EndsInOrder r₀ moves r := by
  have h := steady_of_follow hfresh hfollow
  have hresult (hover : r.result?.isSome = true) : ∃ result, r.stage = .done result := by
    unfold result? at hover
    split at hover
    · next result hdone => exact ⟨result, hdone⟩
    · cases hover
  refine ⟨h.exists_enabled, h.exists_follow, fun hover => ?_, fun i w hover hw => ?_,
    fun i w hover hw hstarted hcalm => ?_, fun hrequested later new r' hlater => ?_⟩
  · obtain ⟨result, hdone⟩ := hresult hover
    exact h.stopped (hdone ▸ trivial)
  · obtain ⟨result, hdone⟩ := hresult hover
    exact h.hasEnded hdone hw
  · obtain ⟨result, hdone⟩ := hresult hover
    -- Nobody has run anything in a run that has not begun.
    have hnone : r₀.Lives i [] := ⟨fun w hw => by simp [hfresh.workers] at hw, fun _ => rfl⟩
    have hlives := (hnone.follow hfollow).worker w hw
    exact hlives.farewell (h.hasEnded hdone hw).1 hstarted hcalm
  · have hcount := count_takes_tick_le hrequested hlater
    have hone : r.ticksLeft ≤ 1 := by
      unfold ticksLeft
      split <;> simp
    omega

/-- The system refuses the second of two observers its thread; the first one is told to stop after
its first callback. -/
theorem endsInOrder_of_follow_refused :
    ∃ (r₀ : Run Builtin) (moves : List (Nat × Move)) (ms : List Mark) (r : Run Builtin),
      r₀.refusal 1 = some "no more threads" ∧ r₀.follow moves = some (ms, r) ∧
      EndsInOrder r₀ moves r ∧ r.result?.isSome = true ∧
      r₀.history 0 moves = [.callback .start false, .farewell false] := by
  let r₀ : Run Builtin :=
    { machine := { memory := ⟨#[0], by decide, by decide⟩ }, pacer := ⟨.zero⟩
      pending := [.trace, .trace]
      refusal := fun n => if n = 1 then some "no more threads" else none }
  let moves : List (Nat × Move) :=
    ([.host] ++ .replicate 3 (.observer 0) ++ .replicate 3 .host ++ .replicate 2 (.observer 0) ++
      .replicate 4 .host).map (0, ·)
  have hend : (r₀.follow moves).map (fun p => p.2.result?.isSome) = some true ∧
      r₀.history 0 moves = [.callback .start false, .farewell false] := by
    decide +kernel
  obtain ⟨⟨ms, r⟩, hfollow, hover⟩ := Option.map_eq_some_iff.mp hend.1
  exact ⟨r₀, moves, ms, r, rfl, hfollow,
    endsInOrder_of_follow ⟨rfl, rfl, rfl, rfl, rfl, rfl⟩ hfollow, hover, hend.2⟩

end Run

end Dcpu16
