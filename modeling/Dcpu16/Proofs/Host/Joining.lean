import Dcpu16.Proofs.Host.Lock

/-! The host waits for everybody.  It is done only when every thread and every task is over, so that
then nobody is left to hold the machine. -/

namespace Dcpu16

/-- At this stage the host has waited for the thread of worker `i`. -/
def HostStage.PastThread (i : Nat) : HostStage → Prop
  | joining j _ => i < j
  | joiningTask j _ => i ≤ j
  | closing _ | done _ => True
  | _ => False

/-- At this stage the host has waited for the task of worker `i`. -/
def HostStage.PastTask (i : Nat) : HostStage → Prop
  | joining j _ | joiningTask j _ => i < j
  | closing _ | done _ => True
  | _ => False

variable {σ : Type}

/-- What the host has waited for at the stage is over. -/
structure Worker.JoinedAt (w : Worker σ) (i : Nat) (stage : HostStage) : Prop where
  thread : stage.PastThread i → w.hasEnded = true
  task : stage.PastTask i → w.taskHasEnded = true

namespace Run

variable {r r' : Run σ} {ms new : List Mark} {i : Nat} {w : Worker σ}

/-- Everybody whom the host has waited for is over. -/
def Joined (r : Run σ) : Prop :=
  ∀ (i : Nat) (w : Worker σ), r.workers[i]? = some w → w.JoinedAt i r.stage

theorem Joined.modify {f : Worker σ → Worker σ} (h : r.Joined) (hw : r.workers[i]? = some w)
    (hworkers : r'.workers = (r.modify i f).workers) (hstage : r'.stage = r.stage)
    (hf : w.JoinedAt i r.stage → (f w).JoinedAt i r.stage) : r'.Joined := by
  intro j w' hw'
  rw [hworkers] at hw'
  rw [hstage]
  rcases modified_or_kept hw hw' with ⟨rfl, rfl⟩ | ⟨-, hw'⟩
  · exact hf (h i w hw)
  · exact h j w' hw'

theorem Joined.observerMove [Observer σ] (h : r.Joined) (hw : r.workers[i]? = some w)
    (hmove : r.ObserverMove i w new r') : r'.Joined := by
  have hended := hmove.not_hasEnded
  have hpast : ¬r.stage.PastThread i := fun hpast =>
    Bool.eq_false_iff.mp hended ((h i w hw).thread hpast)
  have hjoined {w' : Worker σ} (htask : w'.task = w.task) (hw : w.JoinedAt i r.stage) :
      w'.JoinedAt i r.stage := by
    refine ⟨fun hthread => absurd hthread hpast, fun hpast => ?_⟩
    rw [Worker.taskHasEnded, htask]
    exact hw.task hpast
  cases hmove <;> exact h.modify hw rfl rfl (hjoined rfl)

theorem Joined.taskMove {t : Task} (h : r.Joined) (hw : r.workers[i]? = some w)
    (ht : w.task = some t) (hmove : r.TaskMove i t new r') : r'.Joined := by
  have hended : w.taskHasEnded = false := by
    rw [Worker.taskHasEnded, ht]
    exact hmove.not_hasEnded
  have hpast : ¬r.stage.PastTask i := fun hpast =>
    Bool.eq_false_iff.mp hended ((h i w hw).task hpast)
  have hjoined {task : Option Task} (hw : w.JoinedAt i r.stage) :
      Worker.JoinedAt { w with task } i r.stage :=
    ⟨hw.thread, fun htask => absurd htask hpast⟩
  cases hmove <;> exact h.modify hw rfl rfl hjoined

theorem Joined.hostMove [Observer σ] (h : r.Joined) (hmove : r.HostMove new r') : r'.Joined := by
  intro i w hw
  cases hmove with
  | @join j _ w' _ hstage hw' hended =>
    have hj := h i w hw
    rw [hstage] at hj
    refine ⟨fun hle => ?_, fun hlt => hj.task hlt⟩
    rcases Nat.lt_or_eq_of_le hle with hlt | rfl
    · exact hj.thread hlt
    · obtain rfl := Option.some.inj (hw.symm.trans hw')
      exact hended
  | @joinTask j _ _ hstage hended =>
    have hj := h i w hw
    rw [hstage] at hj
    refine ⟨fun hlt => hj.thread (Nat.le_of_lt_succ hlt),
      fun hlt => ?_⟩
    rcases Nat.lt_or_eq_of_le (Nat.le_of_lt_succ hlt) with hlt | rfl
    · exact hj.task hlt
    · simpa [hw] using hended
  | @wrap j _ hstage hj =>
    have hlt : i < j :=
      Nat.lt_of_lt_of_le (List.getElem?_eq_some_iff.mp hw).1 (List.getElem?_eq_none_iff.mp hj)
    have hjoined := h i w hw
    rw [hstage] at hjoined
    exact ⟨fun _ => hjoined.thread hlt, fun _ => hjoined.task hlt⟩
  | close hstage =>
    have hjoined := h i w hw
    rw [hstage] at hjoined
    exact ⟨fun _ => hjoined.thread trivial, fun _ => hjoined.task trivial⟩
  | launch hstage =>
    rw [hstage]
    exact ⟨False.elim, False.elim⟩
  | settle _ _ hnext => rcases hnext with rfl | ⟨deadline, rfl⟩ <;> exact ⟨False.elim, False.elim⟩
  | await => exact ⟨fun hlt => (Nat.not_lt_zero i hlt).elim,
      fun hlt => (Nat.not_lt_zero i hlt).elim⟩
  | _ => exact ⟨False.elim, False.elim⟩

theorem Joined.happens [Observer σ] (h : r.Joined) (hnext : r.Happens new r') : r'.Joined := by
  cases hnext with
  | host hmove => exact h.hostMove hmove
  | observer hw hmove => exact h.observerMove hw hmove
  | task hw ht hmove => exact h.taskMove hw ht hmove
  | outside => exact h

/-- Nobody holds the machine when the host is done. -/
theorem Joined.holder_eq_none {result : Except HostError RunSummary} (h : r.Joined)
    (hexclusive : r.Exclusive ms) (hdone : r.stage = .done result) : r.holder = none := by
  cases hholder : r.holder with
  | none => rfl
  | some p =>
    obtain ⟨i, w, s, hw, huses⟩ := hexclusive.holder p hholder
    obtain ⟨hthread, htask⟩ := h i w hw
    rw [hdone] at hthread htask
    cases huses with
    | callback hstage =>
      cases (Worker.not_hasEnded_of_during hstage).symm.trans (hthread trivial)
    | work ht hstage =>
      have hended := htask trivial
      simp [Worker.taskHasEnded, ht, Task.hasEnded, hstage] at hended

end Run

end Dcpu16
