import Dcpu16.Proofs.Host.Joining

/-! The host never waits in vain.  Whomever it waits for is on the way to what it waits for, or is
over, whether callbacks panic or not.  So while the host waits somebody else can move, and the moves
that lead to the host's next one run out. -/

namespace Dcpu16

variable {σ : Type}

/-! ### What the host waits for -/

/-- At this stage worker `i` has been started or been sent a tick, and the host has not read the
answer. -/
def HostStage.Awaits (i : Nat) : HostStage → Prop
  | starting => True
  | gathering _ j _ => j ≤ i
  | announcing j => i < j
  | _ => False

/-- At this stage the host has told worker `i` to stop. -/
def HostStage.HasTold (i : Nat) : HostStage → Prop
  | dismissing j _ => i < j
  | joining .. | joiningTask .. | closing _ | done _ => True
  | _ => False

/-- At this stage the host has stopped ticking. -/
def HostStage.IsLast : HostStage → Prop
  | abandoning _ | dismissing .. | joining .. | joiningTask .. | closing _ | done _ => True
  | _ => False

/-- The answers that a thread gives before it reads another order. -/
def Stage.owed : Stage → Nat
  | starting | inStart | answering _ | ticked | inTick => 1
  | refused | waiting | leaving | ended _ => 0

@[simp] theorem Stage.owed_before (round : Round) : round.before.owed = 1 := by cases round <;> rfl

@[simp] theorem Stage.owed_during (round : Round) : round.during.owed = 1 := by cases round <;> rfl

@[simp] theorem Round.before_ne_leaving (round : Round) : round.before ≠ .leaving := by
  cases round <;> simp [before]

@[simp] theorem Round.during_ne_leaving (round : Round) : round.during ≠ .leaving := by
  cases round <;> simp [during]

namespace Worker

/-- The answers that are sent, or follow from the orders that are sent. -/
def owed (w : Worker σ) : Nat := w.stage.owed + w.inbox.count .tick + w.outbox.length

/-- The worker is on the way to what the host is to get from it, unless its thread is over. -/
structure Attends (w : Worker σ) (i : Nat) (stage : HostStage) : Prop where
  answer : stage.Awaits i → w.hasEnded = true ∨ 0 < w.owed
  stop : stage.HasTold i → w.hasEnded = true ∨ w.stage = .leaving ∨ .stop ∈ w.inbox

variable {w w' : Worker σ} {i : Nat} {stage stage' : HostStage}

theorem Attends.pass (h : w.Attends i stage) (hawaits : stage'.Awaits i → stage.Awaits i)
    (htold : stage'.HasTold i → stage.HasTold i) : w.Attends i stage' :=
  ⟨fun h' => h.answer (hawaits h'), fun h' => h.stop (htold h')⟩

theorem attends_of_hasEnded (h : w.hasEnded = true) : w.Attends i stage :=
  ⟨fun _ => .inl h, fun _ => .inl h⟩

theorem Attends.move (h : w.Attends i stage) (hended : w.hasEnded = false)
    (hleaving : w.stage ≠ .leaving) (howed : w.owed ≤ w'.owed)
    (hstop : .stop ∈ w.inbox → w'.stage = .leaving ∨ .stop ∈ w'.inbox) : w'.Attends i stage := by
  have hgoes : w.hasEnded ≠ true := by simp [hended]
  refine ⟨fun h' => .inr ?_, fun h' => .inr ?_⟩
  · have hpos := (h.answer h').resolve_left hgoes
    omega
  · exact hstop (((h.stop h').resolve_left hgoes).resolve_left hleaving)

theorem owed_tell_tick (h : w.hasEnded = false) : (w.tell .tick).owed = w.owed + 1 := by
  simp only [tell, h, Bool.false_eq_true, if_false, owed, List.count_append,
    List.count_singleton_self]
  omega

theorem stop_mem_inbox_tell (h : w.hasEnded = false) : .stop ∈ (w.tell .stop).inbox := by
  simp [tell, h]

end Worker

namespace Run

variable {r r' : Run σ} {ms new : List Mark} {i : Nat} {w : Worker σ}

/-- What stays true of every run, also of one in which callbacks panic. -/
structure Steady (ms : List Mark) (r : Run σ) : Prop where
  exclusive : r.Exclusive ms
  joined : r.Joined
  attends (i : Nat) (w : Worker σ) : r.workers[i]? = some w → w.Attends i r.stage
  stopped : r.stage.IsLast → r.stop = true

theorem Fresh.steady (h : r.Fresh) : r.Steady [] := by
  have hnone (i : Nat) (w : Worker σ) : r.workers[i]? ≠ some w := by simp [h.workers]
  refine ⟨⟨fun i w _ _ hw => absurd hw (hnone i w), fun p hp => ?_, fun _ => rfl⟩,
    fun i w hw => absurd hw (hnone i w), fun i w hw => absurd hw (hnone i w), fun hlast => ?_⟩
  · cases h.holder.symm.trans hp
  · rw [h.stage] at hlast
    exact hlast.elim

/-! ### Moves keep it -/

theorem attends_observerMove [Observer σ] (hw : r.workers[i]? = some w)
    (hmove : r.ObserverMove i w new r') {j : Nat} {w' : Worker σ} (hw' : r'.workers[j]? = some w')
    (h : ∀ (j : Nat) (w : Worker σ), r.workers[j]? = some w → w.Attends j r.stage) :
    w'.Attends j r'.stage := by
  have hended := hmove.not_hasEnded
  have hchange {f : Worker σ → Worker σ} (hworkers : r'.workers = (r.modify i f).workers)
      (hstage : r'.stage = r.stage) (hf : w.Attends i r.stage → (f w).Attends i r.stage) :
      w'.Attends j r'.stage := by
    rw [hstage]
    rcases modified_or_kept hw (hworkers ▸ hw') with ⟨rfl, rfl⟩ | ⟨-, hw'⟩
    · exact hf (h i w hw)
    · exact h j w' hw'
  cases hmove with
  | enter hstage | leave hstage | decline hstage =>
    refine hchange rfl rfl fun ha => ha.move hended (by simp [hstage]) ?_ .inr
    simp only [Worker.owed, hstage, Stage.owed_before, Stage.owed_during]
    exact Nat.le_refl _
  | answer hstage =>
    refine hchange rfl rfl fun ha => ha.move hended (by simp [hstage]) ?_ .inr
    simp only [Worker.owed, hstage, Stage.owed, List.length_append, List.length_singleton]
    omega
  | hear hstage hin =>
    refine hchange rfl rfl fun ha => ha.move hended (by simp [hstage]) ?_ fun hs => .inr ?_
    · simp only [Worker.owed, hstage, hin, Stage.owed, List.count_cons_self]
      omega
    · simpa [hin] using hs
  | obey hstage hin =>
    refine hchange rfl rfl fun ha => ha.move hended (by simp [hstage]) ?_ fun _ => .inl rfl
    simp [Worker.owed, hstage, hin, Stage.owed]
  | panic | depart => exact hchange rfl rfl fun _ => Worker.attends_of_hasEnded rfl

theorem attends_hostMove [Observer σ] (hmove : r.HostMove new r') {i : Nat} {w' : Worker σ}
    (hw' : r'.workers[i]? = some w')
    (h : ∀ (i : Nat) (w : Worker σ), r.workers[i]? = some w → w.Attends i r.stage) :
    w'.Attends i r'.stage := by
  cases hmove with
  | launch hstage =>
    rw [List.getElem?_append] at hw'
    rw [hstage]
    split at hw'
    · exact hstage ▸ h i w' hw'
    · obtain rfl : w' = _ := by simpa using List.mem_of_getElem? hw'
      exact ⟨fun _ => .inr (by simp [Worker.owed, Stage.owed]), False.elim⟩
  | begin hstage =>
    have ha := h i w' hw'
    rw [hstage] at ha
    exact ha.pass (fun _ => trivial) False.elim
  | @proceed _ j _ _ _ hstage | @shutdown _ j _ _ _ _ hstage =>
    obtain ⟨w, hw, rfl⟩ := getElem?_modify_eq_some hw'
    have ha := h i w hw
    rw [hstage] at ha
    split
    · next hij => exact ⟨fun hlt => absurd (hij ▸ hlt) (Nat.not_succ_le_self _), False.elim⟩
    · exact ha.pass Nat.le_of_succ_le False.elim
  | @announce j _ hstage hj hended =>
    obtain ⟨w, hw, rfl⟩ := getElem?_modify_eq_some hw'
    have ha := h i w hw
    rw [hstage] at ha
    split
    · next hij =>
      -- The tick is an order now, and its answer is owed.
      subst hij
      obtain rfl := Option.some.inj (hj.symm.trans hw)
      exact ⟨fun _ => .inr (by rw [Worker.owed_tell_tick hended]; omega), False.elim⟩
    · next hij =>
      exact ha.pass (fun hlt => Nat.lt_of_le_of_ne (Nat.le_of_lt_succ hlt) (Ne.symm hij))
        False.elim
  | @gather j hstage hj =>
    have hlt : i < j :=
      Nat.lt_of_lt_of_le (List.getElem?_eq_some_iff.mp hw').1 (List.getElem?_eq_none_iff.mp hj)
    have ha := h i w' hw'
    rw [hstage] at ha
    exact ha.pass (fun _ => hlt) False.elim
  | @dismiss j _ hstage =>
    obtain ⟨w, hw, rfl⟩ := getElem?_modify_eq_some hw'
    have ha := h i w hw
    rw [hstage] at ha
    split
    · refine ⟨False.elim, fun _ => ?_⟩
      cases hended : w.hasEnded with
      | true => exact .inl (by rw [Worker.tell, if_pos hended, hended])
      | false => exact .inr (.inr (Worker.stop_mem_inbox_tell hended))
    · next hij =>
      exact ha.pass False.elim fun hlt =>
        Nat.lt_of_le_of_ne (Nat.le_of_lt_succ hlt) (Ne.symm hij)
  | @await j _ hstage hj =>
    have hlt : i < j := Nat.lt_of_lt_of_le (List.getElem?_eq_some_iff.mp hw').1 hj
    have ha := h i w' hw'
    rw [hstage] at ha
    exact ha.pass False.elim fun _ => hlt
  | join hstage | joinTask hstage | wrap hstage | close hstage =>
    have ha := h i w' hw'
    rw [hstage] at ha
    exact ha.pass False.elim fun _ => trivial
  | settle _ _ hnext => rcases hnext with rfl | ⟨deadline, rfl⟩ <;> exact ⟨False.elim, False.elim⟩
  | refuseObserver | ready | go | resume => exact ⟨False.elim, False.elim⟩
  | tick => exact ⟨fun hlt => (Nat.not_lt_zero i hlt).elim, False.elim⟩
  | refuse | abandon | lose | yield | interrupt | decline | miss =>
    exact ⟨False.elim, fun hlt => (Nat.not_lt_zero i hlt).elim⟩

theorem stopped_hostMove [Observer σ] (hmove : r.HostMove new r')
    (h : r.stage.IsLast → r.stop = true) (hlast : r'.stage.IsLast) : r'.stop = true := by
  cases hmove with
  | launch hstage => exact h hlast
  | settle _ _ hnext => rcases hnext with rfl | ⟨deadline, rfl⟩ <;> exact hlast.elim
  | begin | proceed | shutdown | ready | go | tick | announce | gather | resume => exact hlast.elim
  | dismiss hstage | await hstage | join hstage | joinTask hstage | wrap hstage | close hstage =>
    exact h (hstage ▸ trivial)
  | refuse | refuseObserver | abandon | lose | yield | interrupt | decline | miss => rfl

theorem Steady.happens [Observer σ] (h : r.Steady ms) (hnext : r.Happens new r') :
    r'.Steady (ms ++ new) := by
  refine ⟨h.exclusive.happens hnext, h.joined.happens hnext, fun i w' hw' => ?_, ?_⟩
  · cases hnext with
    | host hmove => exact attends_hostMove hmove hw' h.attends
    | observer hw hmove => exact attends_observerMove hw hmove hw' h.attends
    | task hw ht hmove =>
      have hrests {f : Task → Task} {i j : Nat}
          (hw' : (r.modifyTask j f).workers[i]? = some w') : w'.Attends i r.stage := by
        obtain ⟨w, hw, rfl⟩ := getElem?_modify_eq_some hw'
        split
        · exact ⟨(h.attends i w hw).answer, (h.attends i w hw).stop⟩
        · exact h.attends i w hw
      cases hmove <;> exact hrests hw'
    | outside => exact h.attends i w' hw'
  · cases hnext with
    | host hmove => exact stopped_hostMove hmove h.stopped
    | observer hw hmove => cases hmove <;> exact h.stopped
    | task hw ht hmove => cases hmove <;> exact h.stopped
    | outside => exact h.stopped

theorem steady_of_follow [Observer σ] {r₀ : Run σ} {moves : List (Nat × Move)} (hfresh : r₀.Fresh)
    (hfollow : r₀.follow moves = some (ms, r)) : r.Steady ms := by
  rw [← List.nil_append ms]
  exact follow_induction (fun _ _ _ _ h hnext => h.happens hnext) hfresh.steady hfollow

theorem Steady.hasEnded {result : Except HostError RunSummary} (h : r.Steady ms)
    (hdone : r.stage = .done result) (hw : r.workers[i]? = some w) :
    w.hasEnded = true ∧ w.taskHasEnded = true := by
  have hjoined := h.joined i w hw
  rw [hdone] at hjoined
  exact ⟨hjoined.thread trivial, hjoined.task trivial⟩

end Run

end Dcpu16
