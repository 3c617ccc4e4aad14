import Dcpu16.Proofs.Host.Waiting

/-! Progress.  While the host waits, a thread, a task or time can move on, and each of these moves
leaves fewer to come before the host is enabled. -/

namespace Dcpu16

variable {σ : Type}

/-! ### What is left to do -/

/-- The moves that a thread makes before it waits for an order. -/
def Stage.chores : Stage → Nat
  | starting | ticked => 3
  | inStart | inTick => 2
  | answering _ | leaving => 1
  | refused | waiting | ended _ => 0

@[simp] theorem Stage.chores_before (round : Round) : round.before.chores = 3 := by
  cases round <;> rfl

@[simp] theorem Stage.chores_during (round : Round) : round.during.chores = 2 := by
  cases round <;> rfl

@[simp] theorem Stage.chores_answering (reply : Reply) : (answering reply).chores = 1 := rfl

@[simp] theorem Stage.chores_leaving : leaving.chores = 1 := rfl

@[simp] theorem Stage.chores_waiting : waiting.chores = 0 := rfl

@[simp] theorem Stage.chores_ended (panicked : Bool) : (ended panicked).chores = 0 := rfl

/-- The moves in which a task gives the machine back and returns. -/
def TaskStage.chores : TaskStage → Nat
  | inUse => 2
  | apart => 1
  | ended _ => 0

theorem TaskStage.chores_stage_le (c : Course) : (Run.Course.stage c).chores ≤ 1 := by
  cases c <;> simp [Run.Course.stage, chores]

/-- The moves of a worker with the orders that it has; an order makes for four of them at most. -/
def Worker.chores (w : Worker σ) : Nat :=
  w.stage.chores + 4 * w.inbox.length + w.task.elim 0 (·.stage.chores)

/-- The moves of several workers. -/
def choresOf (workers : List (Worker σ)) : Nat := workers.foldr (·.chores + ·) 0

@[simp] theorem choresOf_nil : choresOf ([] : List (Worker σ)) = 0 := rfl

@[simp] theorem choresOf_cons (w : Worker σ) (workers : List (Worker σ)) :
    choresOf (w :: workers) = w.chores + choresOf workers := rfl

@[simp] theorem choresOf_append (workers new : List (Worker σ)) :
    choresOf (workers ++ new) = choresOf workers + choresOf new := by
  induction workers with
  | nil => rw [List.nil_append, choresOf_nil, Nat.zero_add]
  | cons w workers ih => rw [List.cons_append, choresOf_cons, choresOf_cons, ih, Nat.add_assoc]

namespace Run

/-- The moves to come before the host's, apart from those in which tasks take the machine. -/
def chores (r : Run σ) : Nat := choresOf r.workers + (r.enabled .elapse).toNat

/-- The moves of threads, of tasks that give the machine back or return, and of time. -/
def Serves (r : Run σ) : Move → Prop
  | .observer _ | .retire _ | .elapse => True
  | .use i => r.taskIn i (· = .inUse) = true
  | .host | .request => False

variable {r r' : Run σ} {ms new : List Mark} {i : Nat} {w : Worker σ} {move : Move}

theorem Serves.ne (h : r.Serves move) : move ≠ .host ∧ move ≠ .request := by
  cases move <;> simp_all [Serves]

theorem choresOf_modify {workers : List (Worker σ)} {f : Worker σ → Worker σ}
    (hw : workers[i]? = some w) :
    choresOf (workers.modify i f) + w.chores = choresOf workers + (f w).chores := by
  induction workers generalizing i with
  | nil => cases hw
  | cons v workers ih =>
    cases i with
    | zero =>
      obtain rfl : v = w := by simpa using hw
      simp only [List.modify_zero_cons, choresOf_cons]
      omega
    | succ i =>
      have hrest := ih (i := i) (by simpa using hw)
      simp only [List.modify_succ_cons, choresOf_cons]
      omega

theorem chores_lt {f : Worker σ → Worker σ} (hw : r.workers[i]? = some w)
    (hworkers : r'.workers = (r.modify i f).workers)
    (htime : r'.enabled .elapse = r.enabled .elapse) (hf : (f w).chores < w.chores) :
    r'.chores < r.chores := by
  have hsum := choresOf_modify (f := f) hw
  rw [chores, chores, hworkers, htime]
  simp only [modify]
  omega

theorem ObserverMove.chores_lt [Observer σ] (hw : r.workers[i]? = some w)
    (hmove : r.ObserverMove i w new r') : r'.chores < r.chores := by
  have hthread {f : Worker σ → Worker σ} (hworkers : r'.workers = (r.modify i f).workers)
      (htime : r'.enabled .elapse = r.enabled .elapse) (htask : (f w).task = w.task)
      (hless : (f w).stage.chores + 4 * (f w).inbox.length <
        w.stage.chores + 4 * w.inbox.length) : r'.chores < r.chores := by
    refine Run.chores_lt hw hworkers htime ?_
    rw [Worker.chores, Worker.chores, htask]
    omega
  cases hmove with
  | enter hstage | decline hstage =>
    refine hthread rfl rfl rfl ?_
    simp [hstage]
  | leave hstage | panic hstage =>
    refine hthread rfl rfl rfl ?_
    simp [hstage]
  | answer hstage | depart hstage =>
    refine hthread rfl rfl rfl ?_
    simp [hstage]
  | hear hstage hin | obey hstage hin =>
    refine hthread rfl rfl rfl ?_
    simp only [hstage, hin, Stage.chores, List.length_cons]
    omega

theorem chores_lt_of_task {t : Task} {f : Task → Task} (hw : r.workers[i]? = some w)
    (ht : w.task = some t) (hworkers : r'.workers = (r.modifyTask i f).workers)
    (htime : r'.enabled .elapse = r.enabled .elapse)
    (hf : (f t).stage.chores < t.stage.chores) : r'.chores < r.chores := by
  refine chores_lt hw hworkers htime ?_
  simp only [Worker.chores, ht, Option.map_some, Option.elim_some]
  omega

/-- Each of these moves leaves less to do, and the host where it is. -/
theorem Serves.moved [Observer σ] (h : r.Serves move) (hmoved : r.Moved move new r') :
    r'.chores < r.chores ∧ r'.stage = r.stage := by
  cases hmoved with
  | host | request => exact h.elim
  | observer hw hmove =>
    refine ⟨hmove.chores_lt hw, ?_⟩
    cases hmove <;> rfl
  | @use i w t _ _ hw ht hmove =>
    have hstage : t.stage = .inUse := by simpa [Serves, taskIn, hw, ht] using h
    cases hmove with
    | give =>
      refine ⟨chores_lt_of_task hw ht rfl rfl ?_, rfl⟩
      rw [hstage]
      exact Nat.lt_succ_of_le (TaskStage.chores_stage_le _)
    | take hapart | decline hapart | retire hapart => simp [hstage] at hapart
  | retire hw ht hstage =>
    refine ⟨chores_lt_of_task hw ht rfl rfl ?_, rfl⟩
    rw [hstage]
    exact Nat.zero_lt_one
  | @elapse deadline hstage hquiet hearly =>
    have hwaiting : r.enabled .elapse = true := by simp [enabled, hstage, hquiet, hearly]
    have hreached : ¬max r.now deadline < deadline := Nat.not_lt_of_le (Nat.le_max_right ..)
    have hover : (r.advanceTo deadline).enabled .elapse = false := by
      simp [enabled, advanceTo, hstage, hreached]
    refine ⟨?_, rfl⟩
    rw [chores, chores, hwaiting, hover]
    exact Nat.lt_succ_self _

/-! ### Somebody can move -/

theorem exists_of_all_eq_false {α : Type} {o : Option α} {p : α → Bool} (h : o.all p = false) :
    ∃ a, o = some a ∧ p a = false := by
  cases o with
  | none => cases h
  | some a => exact ⟨a, rfl, h⟩

/-- Who has the machine can give it back. -/
theorem Exclusive.exists_serves {p : Holder} (h : r.Exclusive ms) (hheld : r.holder = some p) :
    ∃ move, r.Serves move ∧ r.enabled move = true := by
  obtain ⟨i, w, s, hw, huses⟩ := h.holder p hheld
  cases huses with
  | @callback round hstage =>
    refine ⟨.observer i, trivial, ?_⟩
    cases round <;> simp [enabled, observerEnabled, hw, hstage, Round.during]
  | work ht hstage =>
    exact ⟨.use i, by simp [Serves, taskIn, hw, ht, hstage],
      by simp [enabled, taskIn, hw, ht, hstage]⟩

theorem exists_serves_of_thread (hw : r.workers[i]? = some w) (hfree : r.holder = none)
    (hended : w.hasEnded = false) (hbusy : w.stage = .waiting → w.inbox ≠ []) :
    ∃ move, r.Serves move ∧ r.enabled move = true := by
  refine ⟨.observer i, trivial, ?_⟩
  cases hstage : w.stage with
  | refused | ended => simp [Worker.hasEnded, hstage] at hended
  | waiting => simpa [enabled, observerEnabled, hw, hstage] using hbusy hstage
  | _ => simp [enabled, observerEnabled, hw, hstage, hfree]

theorem exists_serves_of_task (hw : r.workers[i]? = some w) (hstop : r.stop = true)
    (hended : w.taskHasEnded = false) : ∃ move, r.Serves move ∧ r.enabled move = true := by
  obtain ⟨t, ht, hgoes⟩ : ∃ t, w.task = some t ∧ t.hasEnded = false := by
    cases ht : w.task with
    | none => simp [Worker.taskHasEnded, ht] at hended
    | some t => exact ⟨t, rfl, by simpa [Worker.taskHasEnded, ht] using hended⟩
  cases hstage : t.stage with
  | ended => simp [Task.hasEnded, hstage] at hgoes
  | inUse =>
    exact ⟨.use i, by simp [Serves, taskIn, hw, ht, hstage],
      by simp [enabled, taskIn, hw, ht, hstage]⟩
  | apart => exact ⟨.retire i, trivial, by simp [enabled, taskIn, hw, ht, hstage, hstop]⟩

/-- Nobody whom the host waits for is stuck. -/
theorem Steady.exists_serves (h : r.Steady ms) (hopen : r.result? = none)
    (hwaits : r.enabled .host = false) : ∃ move, r.Serves move ∧ r.enabled move = true := by
  cases hholder : r.holder with
  | some p => exact h.exclusive.exists_serves hholder
  | none =>
    simp only [enabled] at hwaits
    cases hstage : r.stage with
    | starting | checking | announcing | dismissing | ticking | closing =>
      simp [hostEnabled, hstage, hholder] at hwaits
    | done result => simp [result?, hstage] at hopen
    | abandoning e =>
      simp only [hostEnabled, hstage] at hwaits
      obtain ⟨w, hw, hended⟩ := exists_of_all_eq_false hwaits
      rw [List.getLast?_eq_getElem?] at hw
      exact exists_serves_of_task hw (h.stopped (hstage ▸ trivial)) hended
    | gathering round i first =>
      simp only [hostEnabled, hstage] at hwaits
      obtain ⟨w, hw, hwaits⟩ := exists_of_all_eq_false hwaits
      obtain ⟨hout, hended⟩ : w.outbox = [] ∧ w.hasEnded = false := by simpa using hwaits
      -- Its answer is not there yet, so it has an order to hear or is in a callback.
      have hanswer := (h.attends i w hw).answer (hstage ▸ Nat.le_refl i)
      refine exists_serves_of_thread hw hholder hended fun hwaiting hin => ?_
      rw [hended, Worker.owed, hwaiting, hin, hout] at hanswer
      simp [Stage.owed] at hanswer
    | pausing deadline =>
      exact ⟨.elapse, trivial, by simpa [hostEnabled, enabled, hstage] using hwaits⟩
    | joining i cause =>
      simp only [hostEnabled, hstage] at hwaits
      obtain ⟨w, hw, hended⟩ := exists_of_all_eq_false hwaits
      refine exists_serves_of_thread hw hholder hended fun hwaiting hin => ?_
      have hstop := (h.attends i w hw).stop (hstage ▸ trivial)
      simp [hended, hwaiting, hin] at hstop
    | joiningTask i cause =>
      simp only [hostEnabled, hstage] at hwaits
      obtain ⟨w, hw, hended⟩ := exists_of_all_eq_false hwaits
      exact exists_serves_of_task hw (h.stopped (hstage ▸ trivial)) hended

/-- Until a run is over somebody can move, requests from outside apart. -/
theorem Steady.exists_enabled (h : r.Steady ms) (hopen : r.result? = none) :
    ∃ move, move ≠ .request ∧ r.enabled move = true := by
  cases hhost : r.enabled .host with
  | true => exact ⟨.host, nofun, hhost⟩
  | false =>
    obtain ⟨move, hserves, henabled⟩ := h.exists_serves hopen hhost
    exact ⟨move, hserves.ne.2, henabled⟩

theorem advanceTo_zero (r : Run σ) : r.advanceTo 0 = r := by
  rw [advanceTo, Nat.max_zero]

theorem follow_of_enabled [Observer σ] {moves : List (Nat × Move)}
    (henabled : r.enabled move = true)
    (hfollow : (r.act move).follow moves = some (new, r')) :
    r.follow ((0, move) :: moves) = some (r.marks move ++ new, r') := by
  have hstep : r.step move = some (r.act move) := if_pos henabled
  refine follow_cons.mpr ⟨r.act move, new, ?_, hfollow, ?_⟩
  · rw [advanceTo_zero, hstep]
  · rw [advanceTo_zero]

/-- From wherever a run has come to, threads, tasks and time can take it to where the host moves. -/
theorem Steady.exists_follow [Observer σ] (h : r.Steady ms) (hopen : r.result? = none) :
    ∃ moves new r', (∀ p ∈ moves, p.2 ≠ .host ∧ p.2 ≠ .request) ∧
      r.follow moves = some (new, r') ∧ r'.enabled .host = true := by
  -- What is left to do gets less with every move but the host's.
  induction hn : r.chores using Nat.strongRecOn generalizing r ms with
  | ind n ih =>
    cases hhost : r.enabled .host with
    | true => exact ⟨[], [], r, nofun, rfl, hhost⟩
    | false =>
      obtain ⟨move, hserves, henabled⟩ := h.exists_serves hopen hhost
      have hstep : r.step move = some (r.act move) := if_pos henabled
      obtain ⟨hless, hstage⟩ := hserves.moved (moved_of_step hstep)
      have hopen' : (r.act move).result? = none := by rwa [result?, hstage]
      obtain ⟨moves, new, r', hmoves, hfollow, hend⟩ :=
        ih _ (hn ▸ hless) (h.happens (happens_of_step hstep)) hopen' rfl
      refine ⟨(0, move) :: moves, r.marks move ++ new, r', ?_, ?_, hend⟩
      · exact List.forall_mem_cons.mpr ⟨hserves.ne, hmoves⟩
      · exact follow_of_enabled henabled hfollow

/-- A run that can go on for only so many moves gets to its end. -/
theorem Steady.exists_end [Observer σ] {bound : Nat} (h : r.Steady ms)
    (hbound : ∀ moves new r', (∀ p ∈ moves, p.2 ≠ .request) → r.follow moves = some (new, r') →
      moves.length ≤ bound) :
    ∃ moves new r', (∀ p ∈ moves, p.2 ≠ .request) ∧ r.follow moves = some (new, r') ∧
      r'.result?.isSome = true := by
  induction bound using Nat.strongRecOn generalizing r ms with
  | ind bound ih =>
    cases hresult : r.result? with
    | some result => exact ⟨[], [], r, nofun, rfl, by rw [hresult]; rfl⟩
    | none =>
      obtain ⟨move, hrequest, henabled⟩ := h.exists_enabled hresult
      have hnext : r.step move = some (r.act move) := if_pos henabled
      have hless {moves : List (Nat × Move)} {new : List Mark} {r' : Run σ}
          (hmoves : ∀ p ∈ moves, p.2 ≠ .request)
          (hfollow : (r.act move).follow moves = some (new, r')) : moves.length + 1 ≤ bound :=
        hbound _ _ _ (List.forall_mem_cons.mpr ⟨hrequest, hmoves⟩)
          (follow_of_enabled henabled hfollow)
      have hstays : (r.act move).follow [] = some ([], r.act move) := rfl
      have hpos : 0 + 1 ≤ bound := hless (List.forall_mem_nil _) hstays
      obtain ⟨moves, new, r', hmoves, hfollow, hend⟩ :=
        ih (bound - 1) (by omega) (h.happens (happens_of_step hnext))
          fun moves new r' hmoves hfollow => Nat.le_sub_one_of_lt (hless hmoves hfollow)
      exact ⟨(0, move) :: moves, r.marks move ++ new, r',
        List.forall_mem_cons.mpr ⟨hrequest, hmoves⟩, follow_of_enabled henabled hfollow, hend⟩

end Run

end Dcpu16
