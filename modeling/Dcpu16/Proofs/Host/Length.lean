import Dcpu16.Proofs.Host.Progress

/-! The length of runs.  Between two ticks a host with its observers can make only so many moves, in
whatever order they make them; each stage of the host is worth the moves that can follow it. -/

namespace Dcpu16

variable {σ : Type}

/-- The moves of a host with `n` observers that can follow a stage before another tick, and those
of the observers that they lead to; `pending` observers have not been started. -/
def HostStage.rank (n pending : Nat) : HostStage → Nat
  | starting => 5 * pending + 8 * n + 9
  | announcing i => 5 * (n - i) + 8 * n + 9
  | gathering _ i _ => (n - i) + 7 * n + 8
  | pausing _ => 7 * n + 6
  | checking => 7 * n + 5
  | ticking | abandoning _ => 7 * n + 4
  | dismissing i _ => 5 * (n - i) + 2 * n + 3
  | joining i _ => 2 * (n - i) + 2
  | joiningTask i _ => 2 * (n - (i + 1)) + 3
  | closing _ => 1
  | done _ => 0

/-- The moves that a tick adds. -/
def movesOfTick (n : Nat) : Nat := 6 * n + 6

theorem Worker.chores_tell_le (w : Worker σ) (order : Order) :
    (w.tell order).chores ≤ w.chores + 4 := by
  unfold tell
  split
  · omega
  · simp only [chores, List.length_append, List.length_singleton]
    omega

namespace Run

variable {r r' : Run σ} {new : List Mark} {n i : Nat} {w : Worker σ} {move : Move}

/-- The moves that are left before another tick. -/
def rank (r : Run σ) (n : Nat) : Nat := r.stage.rank n r.pending.length + r.chores

theorem rank_advanceTo_le (r : Run σ) (n now : Nat) : (r.advanceTo now).rank n ≤ r.rank n := by
  refine Nat.add_le_add_left (Nat.add_le_add_left ?_ _) _
  cases hlater : (r.advanceTo now).enabled .elapse with
  | false => exact Nat.zero_le _
  | true =>
    have hnow : r.enabled .elapse = true := by
      simp only [enabled, advanceTo] at hlater ⊢
      split at hlater
      · obtain ⟨hquiet, hearly⟩ := Bool.and_eq_true_iff.mp hlater
        have hnow := Nat.lt_of_le_of_lt (Nat.le_max_left ..) (of_decide_eq_true hearly)
        exact Bool.and_eq_true_iff.mpr ⟨hquiet, decide_eq_true hnow⟩
      · exact hlater
    exact Nat.le_of_eq (congrArg Bool.toNat hnow.symm)

theorem choresOf_tell_le (hw : r.workers[i]? = some w) (order : Order) :
    choresOf (r.workers.modify i (·.tell order)) ≤ choresOf r.workers + 4 := by
  have hsum := choresOf_modify (f := (·.tell order)) hw
  have hless := w.chores_tell_le order
  omega

theorem choresOf_read (hw : r.workers[i]? = some w) (rest : List Reply) :
    choresOf (r.workers.modify i fun w => { w with outbox := rest }) = choresOf r.workers :=
  Nat.add_right_cancel (choresOf_modify (f := fun w => { w with outbox := rest }) hw)

theorem rank_lt (new : List Mark) {k : Nat} (hchores : r'.chores ≤ r.chores + k)
    (hstage : r'.stage.rank n r'.pending.length + k + 1 ≤
      r.stage.rank n r.pending.length + movesOfTick n * new.count (.takes .tick)) :
    r'.rank n + 1 ≤ r.rank n + movesOfTick n * new.count (.takes .tick) := by
  unfold rank
  omega

theorem HostMove.rank_lt [Observer σ] (hmove : r.HostMove new r')
    (hn : r.workers.length + r.pending.length ≤ n) :
    r'.rank n + 1 ≤ r.rank n + movesOfTick n * new.count (.takes .tick) := by
  -- A thread that is started, or told something, has up to four moves more to make.
  have hlt {j : Nat} {w : Worker σ} (hw : r.workers[j]? = some w) : j < n :=
    Nat.lt_of_lt_of_le (List.getElem?_eq_some_iff.mp hw).1 (Nat.le_trans (Nat.le_add_right ..) hn)
  have hchores {r' : Run σ} {k : Nat}
      (hworkers : choresOf r'.workers ≤ choresOf r.workers + k)
      (htime : r'.enabled .elapse = false) : r'.chores ≤ r.chores + k := by
    rw [chores, chores, htime, Bool.toNat_false]
    omega
  have hrest {r' : Run σ} (hworkers : r'.workers = r.workers)
      (htime : r'.enabled .elapse = false) : r'.chores ≤ r.chores + 0 :=
    hchores (by rw [hworkers]; exact Nat.le_refl _) htime
  cases hmove with
  | @launch o rest task log threads hstage hpending htask =>
    have hnew : Worker.chores { name := Observer.name o, observer := o, task } ≤ 4 := by
      subst htask
      cases Observer.background o <;> simp [Worker.chores, Stage.chores, TaskStage.chores]
    refine Run.rank_lt [] (hchores (k := 4) ?_ (by simp [enabled, hstage])) ?_
    · simp only [choresOf_append, choresOf_cons, choresOf_nil]
      omega
    · simp only [hstage, hpending, HostStage.rank, List.length_cons]
      omega
  | @refuseObserver o rest work _ _ _ _ hstage hpending =>
    refine Run.rank_lt [] (hchores (k := 1) ?_ rfl) ?_
    · simp [Worker.chores, Stage.chores, TaskStage.chores]
    · simp only [hstage, hpending, HostStage.rank, List.length_cons]
      omega
  | refuse hstage hpending =>
    refine Run.rank_lt [] (hrest rfl rfl) ?_
    simp only [halt, hstage, hpending, HostStage.rank, List.length_cons]
    omega
  | begin hstage hpending =>
    refine Run.rank_lt [] (hrest rfl rfl) ?_
    simp only [hstage, hpending, HostStage.rank, List.length_nil]
    omega
  | abandon hstage | lose hstage | yield hstage | ready hstage | interrupt hstage | go hstage
  | decline hstage | miss hstage | gather hstage | resume hstage | await hstage | joinTask hstage
  | wrap hstage | close hstage =>
    refine Run.rank_lt [] (hrest rfl rfl) ?_
    simp only [halt, hstage, HostStage.rank]
    omega
  | settle hstage _ hnext =>
    refine Run.rank_lt [] (k := 1) (Nat.add_le_add (Nat.le_add_right ..) (Bool.toNat_le _)) ?_
    rcases hnext with rfl | ⟨deadline, rfl⟩
    · simp only [hstage, HostStage.rank]
      omega
    · simp only [hstage, HostStage.rank]
      omega
  | tick hstage =>
    refine Run.rank_lt [.takes .tick, .gives .tick] (hrest rfl rfl) ?_
    simp [hstage, HostStage.rank, movesOfTick]
    omega
  | proceed hstage hw | shutdown hstage hw =>
    have hj := hlt hw
    refine Run.rank_lt [] (hchores (k := 0) (Nat.le_of_eq (choresOf_read hw _)) rfl) ?_
    simp only [hstage, HostStage.rank]
    omega
  | announce hstage hw =>
    have hj := hlt hw
    refine Run.rank_lt [] (hchores (choresOf_tell_le hw _) rfl) ?_
    simp only [hstage, HostStage.rank]
    omega
  | dismiss hstage hj =>
    have hw := List.getElem?_eq_getElem hj
    have hj' := hlt hw
    refine Run.rank_lt [] (hchores (choresOf_tell_le hw _) rfl) ?_
    simp only [hstage, HostStage.rank]
    omega
  | join hstage hw =>
    have hj := hlt hw
    refine Run.rank_lt [] (hrest rfl rfl) ?_
    simp only [hstage, HostStage.rank]
    omega

theorem HostMove.team_le [Observer σ] (hmove : r.HostMove new r') :
    r'.workers.length + r'.pending.length ≤ r.workers.length + r.pending.length := by
  cases hmove with
  | launch _ hpending | refuseObserver _ hpending =>
    simp only [hpending, List.length_append, List.length_cons, List.length_nil]
    omega
  | refuse _ hpending =>
    rw [hpending, List.length_cons]
    exact Nat.add_le_add_left (Nat.le_succ _) _
  | proceed | shutdown | announce | dismiss =>
    exact Nat.le_of_eq (congrArg (· + r.pending.length) (length_workers_modify ..))
  | _ => exact Nat.le_refl _

/-- No observer that has been started brings a task with it. -/
def Untasked (r : Run σ) : Prop :=
  ∀ (i : Nat) (w : Worker σ), r.workers[i]? = some w → w.task = none

/-- Without tasks every move uses one up. -/
theorem Untasked.rank_lt [Observer σ] (h : r.Untasked) (hmoved : r.Moved move new r')
    (hrequest : move ≠ .request) (hn : r.workers.length + r.pending.length ≤ n) :
    r'.rank n + 1 ≤ r.rank n + movesOfTick n * new.count (.takes .tick) := by
  have hless (hchores : r'.chores < r.chores)
      (hhost : r'.stage = r.stage ∧ r'.pending = r.pending) :
      r'.rank n + 1 ≤ r.rank n + movesOfTick n * new.count (.takes .tick) := by
    rw [rank, rank, hhost.1, hhost.2]
    omega
  cases hmoved with
  | host hmove => exact hmove.rank_lt hn
  | observer hw hmove => exact hless (hmove.chores_lt hw) (by cases hmove <;> exact ⟨rfl, rfl⟩)
  | use hw ht | retire hw ht => cases (h _ _ hw).symm.trans ht
  | elapse hstage hquiet hearly =>
    have hserves : r.Serves .elapse := trivial
    exact hless (hserves.moved (.elapse hstage hquiet hearly)).1 ⟨rfl, rfl⟩
  | request => exact absurd rfl hrequest

theorem Untasked.moved [Observer σ] (hnone : ∀ o : σ, Observer.background o = none)
    (h : r.Untasked) (hmoved : r.Moved move new r') :
    r'.Untasked ∧ r'.workers.length + r'.pending.length ≤ r.workers.length + r.pending.length := by
  have hmodify {i : Nat} {f : Worker σ → Worker σ} (hf : ∀ w, w.task = none → (f w).task = none) :
      (r.modify i f).Untasked ∧
        (r.modify i f).workers.length + r.pending.length ≤ r.workers.length + r.pending.length := by
    refine ⟨fun j w' hw' => ?_, Nat.le_of_eq (congrArg (· + _) (length_workers_modify ..))⟩
    obtain ⟨w, hw, rfl⟩ := getElem?_modify_eq_some hw'
    split
    · exact hf w (h j w hw)
    · exact h j w hw
  cases hmoved with
  | host hmove =>
    refine ⟨fun i w' hw' => ?_, hmove.team_le⟩
    cases hmove.found hw' with
    | resting hw hrests => exact hrests.task.trans (h i _ hw)
    | hired _ _ _ _ htask => rw [htask, hnone, Option.map_none]
  | observer hw hmove => cases hmove <;> exact hmodify fun _ => id
  | use hw ht | retire hw ht => cases (h _ _ hw).symm.trans ht
  | elapse | request => exact ⟨h, Nat.le_refl _⟩

theorem Untasked.length_add_rank_le [Observer σ] (hnone : ∀ o : σ, Observer.background o = none)
    {moves : List (Nat × Move)} {ms : List Mark} (h : r.Untasked)
    (hn : r.workers.length + r.pending.length ≤ n) (hquiet : ∀ p ∈ moves, p.2 ≠ .request)
    (hfollow : r.follow moves = some (ms, r')) :
    moves.length + r'.rank n ≤ r.rank n + movesOfTick n * ms.count (.takes .tick) := by
  induction moves generalizing r ms with
  | nil =>
    obtain ⟨rfl, rfl⟩ := Prod.mk.inj (Option.some.inj hfollow)
    simp
  | cons move moves ih =>
    obtain ⟨next, rest, hnext, hrest, rfl⟩ := follow_cons.mp hfollow
    have hmoved := moved_of_step hnext
    have hnow : (r.advanceTo move.1).Untasked := h
    have hfirst := hnow.rank_lt hmoved (hquiet move List.mem_cons_self) hn
    obtain ⟨huntasked, hteam⟩ := hnow.moved hnone hmoved
    have hothers := ih huntasked (Nat.le_trans hteam hn)
      (fun p hp => hquiet p (List.mem_cons_of_mem _ hp)) hrest
    have hrank := r.rank_advanceTo_le n move.1
    rw [List.length_cons, List.count_append, Nat.mul_add]
    omega

/-- A run of observers without tasks takes no more than so many moves for its ticks, as long as
nobody requests shutdown. -/
theorem length_le_of_follow [Observer σ] (hnone : ∀ o : σ, Observer.background o = none)
    {r₀ : Run σ} {moves : List (Nat × Move)} {ms : List Mark} (hfresh : r₀.Fresh)
    (hquiet : ∀ p ∈ moves, p.2 ≠ .request) (hfollow : r₀.follow moves = some (ms, r)) :
    moves.length ≤ 13 * r₀.pending.length + 9 +
      movesOfTick r₀.pending.length * ms.count (.takes .tick) := by
  have huntasked : r₀.Untasked := fun i w hw => by simp [hfresh.workers] at hw
  have hlength := huntasked.length_add_rank_le hnone (n := r₀.pending.length)
    (by simp [hfresh.workers]) hquiet hfollow
  have hrank : r₀.rank r₀.pending.length = 13 * r₀.pending.length + 9 := by
    simp only [rank, chores, enabled, hfresh.stage, hfresh.workers, HostStage.rank,
      choresOf_nil, Bool.toNat_false]
    omega
  omega

end Run

end Dcpu16
