import Dcpu16.Proofs.Host.Frames

/-! The machine as a lock.  Whoever is in a callback or at work with the machine holds it, nobody
else does, and a trace tells it: a use of the machine begins only when the one before is over. -/

namespace Dcpu16

variable {σ : Type}

/-- The worker whose thread or task holds the machine. -/
def Holder.index : Holder → Nat
  | observer i | task i => i

/-- The thread or the task of worker `i` is at a use of the machine. -/
inductive Worker.Uses (w : Worker σ) (i : Nat) : Holder → Section → Prop
  | callback {round : Round} : w.stage = round.during → Uses w i (.observer i) (round.callback i)
  | work {t : Task} : w.task = some t → t.stage = .inUse → Uses w i (.task i) (.use i)

namespace Worker

variable {w w' : Worker σ} {i : Nat} {p : Holder} {s : Section}

theorem Uses.index_eq (h : w.Uses i p s) : p.index = i := by
  cases h <;> rfl

theorem Rests.uses (h : w.Rests w') (huses : w'.Uses i p s) : w.Uses i p s := by
  cases huses with
  | callback hstage => exact .callback (h.stage ▸ hstage)
  | work htask hstage => exact .work (h.task ▸ htask) hstage

theorem Rests.symm (h : w.Rests w') : w'.Rests w := ⟨h.stage.symm, h.observer.symm, h.task.symm⟩

theorem Uses.of_task (hu : w'.Uses i p s) (htask : w'.task = w.task)
    (hstage : ∀ round : Round, w'.stage ≠ round.during) : w.Uses i p s ∧ p = .task i := by
  cases hu with
  | callback hs => exact (hstage _ hs).elim
  | work ht hs => exact ⟨.work (htask ▸ ht) hs, rfl⟩

theorem uses_iff_of_task (htask : w'.task = w.task)
    (hstage : ∀ round : Round, w.stage ≠ round.during)
    (hstage' : ∀ round : Round, w'.stage ≠ round.during) : w'.Uses i p s ↔ w.Uses i p s :=
  ⟨fun hu => (hu.of_task htask hstage').1, fun hu => (hu.of_task htask.symm hstage).1⟩

theorem uses_iff_of_stage {t t' : Task} (hstage : w'.stage = w.stage) (ht : w.task = some t)
    (ht' : w'.task = some t') (hidle : t.stage ≠ .inUse) (hidle' : t'.stage ≠ .inUse) :
    w'.Uses i p s ↔ w.Uses i p s := by
  constructor
  · intro hu
    cases hu with
    | callback hs => exact .callback (hstage ▸ hs)
    | work hu hs =>
      obtain rfl := Option.some.inj (ht'.symm.trans hu)
      exact absurd hs hidle'
  · intro hu
    cases hu with
    | callback hs => exact .callback (hstage.trans hs)
    | work hu hs =>
      obtain rfl := Option.some.inj (ht.symm.trans hu)
      exact absurd hs hidle

end Worker

@[simp] theorem taken_append (ms ns : List Mark) : taken (ms ++ ns) = taken ms ++ taken ns :=
  List.filterMap_append

@[simp] theorem given_append (ms ns : List Mark) : given (ms ++ ns) = given ms ++ given ns :=
  List.filterMap_append

@[simp] theorem taken_takes (s : Section) : taken [.takes s] = [s] := rfl

@[simp] theorem given_takes (s : Section) : given [.takes s] = [] := rfl

@[simp] theorem taken_gives (s : Section) : taken [.gives s] = [] := rfl

@[simp] theorem given_gives (s : Section) : given [.gives s] = [s] := rfl

namespace Run

/-- The uses of the machine exclude each other. -/
structure Exclusive (ms : List Mark) (r : Run σ) : Prop where
  /-- Who is at a use holds the machine, and that use is the only one that is not over. -/
  uses (i : Nat) (w : Worker σ) (p : Holder) (s : Section) : r.workers[i]? = some w →
    w.Uses i p s → r.holder = some p ∧ taken ms = given ms ++ [s]
  holder (p : Holder) : r.holder = some p →
    ∃ (i : Nat) (w : Worker σ) (s : Section), r.workers[i]? = some w ∧ w.Uses i p s
  free : r.holder = none → taken ms = given ms

variable {r r' : Run σ} {ms new : List Mark} {i : Nat} {w : Worker σ} {f : Worker σ → Worker σ}
  {p : Holder} {s : Section}

theorem Exclusive.occupy (h : r.Exclusive ms) (hw : r.workers[i]? = some w)
    (hfree : r.holder = none) (huses : (f w).Uses i p s)
    (honly : ∀ p' s', (f w).Uses i p' s' → w.Uses i p' s' ∨ p' = p ∧ s' = s)
    (hworkers : r'.workers = (r.modify i f).workers) (hholder : r'.holder = some p) :
    r'.Exclusive (ms ++ [.takes s]) := by
  have htaken : taken (ms ++ [.takes s]) = given (ms ++ [.takes s]) ++ [s] := by
    simp [h.free hfree]
  refine ⟨fun j w' p' s' hw' hu => ?_, fun p' hp' => ?_, fun hnone => ?_⟩
  · -- While the machine is free nobody else is at a use.
    have hidle {w : Worker σ} (hw : r.workers[j]? = some w) (hu : w.Uses j p' s') : False := by
      cases hfree.symm.trans (h.uses j w p' s' hw hu).1
    rcases modified_or_kept hw (hworkers ▸ hw') with ⟨rfl, rfl⟩ | ⟨-, hw'⟩
    · rcases honly p' s' hu with hu | ⟨rfl, rfl⟩
      · exact (hidle hw hu).elim
      · exact ⟨hholder, htaken⟩
    · exact (hidle hw' hu).elim
  · obtain rfl := Option.some.inj (hholder.symm.trans hp')
    refine ⟨i, f w, s, ?_, huses⟩
    rw [hworkers, getElem?_modify_of_eq_some hw, if_pos rfl]
  · cases hholder.symm.trans hnone

theorem Exclusive.release (h : r.Exclusive ms) (hw : r.workers[i]? = some w)
    (huses : w.Uses i p s)
    (honly : ∀ p' s', (f w).Uses i p' s' → w.Uses i p' s' ∧ p' ≠ p)
    (hworkers : r'.workers = (r.modify i f).workers) (hholder : r'.holder = none) :
    r'.Exclusive (ms ++ [.gives s]) := by
  obtain ⟨hp, htaken⟩ := h.uses i w p s hw huses
  refine ⟨fun j w' p' s' hw' hu => ?_, fun p' hp' => ?_, fun _ => ?_⟩
  · rcases modified_or_kept hw (hworkers ▸ hw') with ⟨rfl, rfl⟩ | ⟨hij, hw'⟩
    · obtain ⟨hu, hne⟩ := honly p' s' hu
      exact absurd (Option.some.inj ((h.uses i w p' s' hw hu).1.symm.trans hp)) hne
    · obtain rfl := Option.some.inj ((h.uses j w' p' s' hw' hu).1.symm.trans hp)
      exact absurd (huses.index_eq.symm.trans hu.index_eq) hij
  · cases hholder.symm.trans hp'
  · simpa using htaken

theorem Exclusive.keep (h : r.Exclusive ms) (hw : r.workers[i]? = some w)
    (hsame : ∀ p s, (f w).Uses i p s ↔ w.Uses i p s)
    (hworkers : r'.workers = (r.modify i f).workers) (hholder : r'.holder = r.holder)
    (htaken : taken new = []) (hgiven : given new = []) : r'.Exclusive (ms ++ new) := by
  refine ⟨fun j w' p' s' hw' hu => ?_, fun p' hp' => ?_, ?_⟩
  · rw [taken_append, given_append, htaken, hgiven, List.append_nil, List.append_nil, hholder]
    rcases modified_or_kept hw (hworkers ▸ hw') with ⟨rfl, rfl⟩ | ⟨-, hw'⟩
    · exact h.uses i w p' s' hw ((hsame p' s').mp hu)
    · exact h.uses j w' p' s' hw' hu
  · obtain ⟨j, w', s', hw', hu⟩ := h.holder p' (hholder ▸ hp')
    refine ⟨j, _, s', hworkers ▸ getElem?_modify_of_eq_some hw', ?_⟩
    split
    · next hij =>
      subst hij
      obtain rfl := Option.some.inj (hw.symm.trans hw')
      exact (hsame p' s').mpr hu
    · exact hu
  · rw [taken_append, given_append, htaken, hgiven, List.append_nil, List.append_nil, hholder]
    exact h.free

theorem Exclusive.observerMove [Observer σ] (h : r.Exclusive ms) (hw : r.workers[i]? = some w)
    (hmove : r.ObserverMove i w new r') : r'.Exclusive (ms ++ new) := by
  cases hmove with
  | @enter round hstage hfree =>
    refine h.occupy (f := fun w => { w with stage := round.during }) hw hfree (.callback rfl)
      (fun p' s' hu => ?_) rfl rfl
    cases hu with
    | callback hs =>
      obtain rfl := Round.during_inj.mp hs
      exact .inr ⟨rfl, rfl⟩
    | work ht hs => exact .inl (.work ht hs)
  | leave hstage | panic hstage =>
    refine h.release hw (.callback hstage) (fun p' s' hu => ?_) rfl rfl
    obtain ⟨hu, rfl⟩ : w.Uses i p' s' ∧ p' = .task i :=
      hu.of_task rfl fun round => by cases round <;> simp [Round.during]
    exact ⟨hu, by simp⟩
  | decline hstage =>
    refine h.keep hw (fun p' s' => Worker.uses_iff_of_task rfl (fun round => ?_) fun round => ?_)
      rfl rfl rfl rfl
    · rw [hstage]
      exact Round.before_ne_during _ round
    · cases round <;> simp [Round.during]
  | answer hstage | hear hstage | obey hstage | depart hstage =>
    refine h.keep hw (fun p' s' => Worker.uses_iff_of_task rfl (fun round => ?_) fun round => ?_)
      rfl rfl rfl rfl
    · rw [hstage]
      cases round <;> simp [Round.during]
    · cases round <;> simp [Round.during]

theorem Exclusive.taskMove {t : Task} (h : r.Exclusive ms) (hw : r.workers[i]? = some w)
    (ht : w.task = some t) (hmove : r.TaskMove i t new r') : r'.Exclusive (ms ++ new) := by
  have hcourse (c : Course) : Course.stage c ≠ .inUse := by cases c <;> simp [Course.stage]
  have hmap (f : Task → Task) : w.task.map f = some (f t) := congrArg (Option.map f) ht
  cases hmove with
  | take hstage hfree =>
    refine h.occupy hw hfree (.work (hmap _) rfl) (fun p' s' hu => ?_) rfl rfl
    cases hu with
    | callback hs => exact .inl (.callback hs)
    | work => exact .inr ⟨rfl, rfl⟩
  | give hstage =>
    refine h.release hw (.work ht hstage) (fun p' s' hu => ?_) rfl rfl
    cases hu with
    | callback hs => exact ⟨.callback hs, nofun⟩
    | work ht' hs =>
      obtain rfl := Option.some.inj ((hmap _).symm.trans ht')
      exact absurd hs (hcourse _)
  | decline hstage =>
    exact h.keep hw (fun p' s' => Worker.uses_iff_of_stage rfl ht (hmap _) (by simp [hstage])
      (hcourse _)) rfl rfl rfl rfl
  | retire hstage =>
    exact h.keep hw (fun p' s' => Worker.uses_iff_of_stage rfl ht (hmap _) (by simp [hstage])
      (by simp)) rfl rfl rfl rfl

theorem Exclusive.hostMove [Observer σ] (h : r.Exclusive ms) (hmove : r.HostMove new r') :
    r'.Exclusive (ms ++ new) := by
  have huses {j : Nat} {w' : Worker σ} {p' : Holder} {s' : Section}
      (hw' : r'.workers[j]? = some w') (hu : w'.Uses j p' s') :
      ∃ w, r.workers[j]? = some w ∧ w.Uses j p' s' := by
    cases hmove.found hw' with
    | resting hw hrests => exact ⟨_, hw, hrests.uses hu⟩
    | hired _ _ _ _ htask hstage =>
      cases hu with
      | @callback round hs =>
        rcases hstage with hstage | hstage <;> cases round <;> simp [hstage, Round.during] at hs
      | work ht hs =>
        obtain ⟨work, -, rfl⟩ := Option.map_eq_some_iff.mp (htask.symm.trans ht)
        simp at hs
  have hholder := hmove.holder_eq
  have hheld (p' : Holder) (hp' : r'.holder = some p') : ∃ (j : Nat) (w' : Worker σ) (s' : Section),
      r'.workers[j]? = some w' ∧ w'.Uses j p' s' := by
    obtain ⟨j, w, s', hw, hu⟩ := h.holder p' (hholder ▸ hp')
    obtain ⟨w', hw', hrests⟩ := hmove.kept hw
    exact ⟨j, w', s', hw', hrests.symm.uses hu⟩
  rcases hmove.use with ⟨rfl, -⟩ | ⟨rfl, -, hfree, -⟩
  · rw [List.append_nil]
    refine ⟨fun j w' p' s' hw' hu => ?_, hheld, hholder ▸ h.free⟩
    obtain ⟨w, hw, hu⟩ := huses hw' hu
    rw [hholder]
    exact h.uses j w p' s' hw hu
  · refine ⟨fun j w' p' s' hw' hu => ?_, hheld, fun _ => ?_⟩
    · obtain ⟨w, hw, hu⟩ := huses hw' hu
      cases hfree.symm.trans (h.uses j w p' s' hw hu).1
    · rw [taken_append, given_append, h.free hfree]
      rfl

theorem Exclusive.happens [Observer σ] (h : r.Exclusive ms) (hnext : r.Happens new r') :
    r'.Exclusive (ms ++ new) := by
  cases hnext with
  | host hmove => exact h.hostMove hmove
  | observer hw hmove => exact h.observerMove hw hmove
  | task hw ht hmove => exact h.taskMove hw ht hmove
  | outside =>
    rw [List.append_nil]
    exact ⟨h.uses, h.holder, h.free⟩

end Run

end Dcpu16
