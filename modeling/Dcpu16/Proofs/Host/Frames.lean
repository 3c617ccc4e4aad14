import Dcpu16.Proofs.Host.Moves

/-! What the moves of a run leave alone. -/

namespace Dcpu16

variable {σ : Type}

/-- The worker's thread and task have not moved. -/
structure Worker.Rests (w w' : Worker σ) : Prop where
  stage : w'.stage = w.stage
  observer : w'.observer = w.observer
  task : w'.task = w.task

theorem Worker.Rests.refl (w : Worker σ) : w.Rests w := ⟨rfl, rfl, rfl⟩

theorem Worker.rests_tell (w : Worker σ) (order : Order) : w.Rests (w.tell order) := by
  unfold tell
  split
  · exact .refl w
  · exact ⟨rfl, rfl, rfl⟩

theorem Worker.not_hasEnded_of_before {w : Worker σ} {round : Round}
    (h : w.stage = round.before) : w.hasEnded = false := by
  cases round <;> simp [hasEnded, h, Round.before]

theorem Worker.not_hasEnded_of_during {w : Worker σ} {round : Round}
    (h : w.stage = round.during) : w.hasEnded = false := by
  cases round <;> simp [hasEnded, h, Round.during]

theorem Worker.outbox_tell (w : Worker σ) (order : Order) : (w.tell order).outbox = w.outbox := by
  unfold tell
  split <;> rfl

namespace Run

variable {r r' : Run σ} {new : List Mark} {i : Nat} {w : Worker σ}

theorem getElem?_modify_eq_some {i j : Nat} {f : Worker σ → Worker σ} {w : Worker σ}
    (h : (r.modify i f).workers[j]? = some w) :
    ∃ w', r.workers[j]? = some w' ∧ w = if i = j then f w' else w' := by
  rw [modify, List.getElem?_modify] at h
  obtain ⟨w', hw', rfl⟩ := Option.map_eq_some_iff.mp h
  exact ⟨w', hw', rfl⟩

theorem modified_or_kept {i j : Nat} {f : Worker σ → Worker σ} {w w' : Worker σ}
    (hw : r.workers[i]? = some w) (h : (r.modify i f).workers[j]? = some w') :
    i = j ∧ w' = f w ∨ i ≠ j ∧ r.workers[j]? = some w' := by
  obtain ⟨w'', hw'', rfl⟩ := getElem?_modify_eq_some h
  split
  · next hij =>
    subst hij
    obtain rfl := Option.some.inj (hw.symm.trans hw'')
    exact .inl ⟨rfl, rfl⟩
  · next hij => exact .inr ⟨hij, hw''⟩

theorem getElem?_modify_of_eq_some {i j : Nat} {f : Worker σ → Worker σ} {w : Worker σ}
    (h : r.workers[j]? = some w) :
    (r.modify i f).workers[j]? = some (if i = j then f w else w) := by
  rw [modify, List.getElem?_modify, h]
  rfl

@[simp] theorem length_workers_modify (i : Nat) (f : Worker σ → Worker σ) :
    (r.modify i f).workers.length = r.workers.length := List.length_modify ..

theorem ObserverMove.not_hasEnded [Observer σ] (hmove : r.ObserverMove i w new r') :
    w.hasEnded = false := by
  cases hmove with
  | enter hstage | decline hstage => exact Worker.not_hasEnded_of_before hstage
  | leave hstage | panic hstage => exact Worker.not_hasEnded_of_during hstage
  | answer hstage | hear hstage | obey hstage | depart hstage => simp [Worker.hasEnded, hstage]

theorem ObserverMove.not_takes_tick [Observer σ] (hmove : r.ObserverMove i w new r') :
    .takes .tick ∉ new := by
  cases hmove with
  | @enter round => cases round <;> simp [Round.callback]
  | _ => simp

theorem TaskMove.not_hasEnded {t : Task} (hmove : r.TaskMove i t new r') : t.hasEnded = false := by
  cases hmove with
  | take hstage | decline hstage | give hstage | retire hstage => simp [Task.hasEnded, hstage]

/-- A worker after a move of the host: it rests, or the host has just taken it on. -/
inductive Found [Observer σ] (r : Run σ) (i : Nat) (w' : Worker σ) : Prop
  | resting {w : Worker σ} : r.workers[i]? = some w → w.Rests w' → Found r i w'
  | hired {o : σ} {rest : List σ} : i = r.workers.length → r.stage = .starting →
      r.pending = o :: rest → w'.observer = o →
      w'.task = (Observer.background o).map (fun work => { work }) →
      w'.stage = .starting ∨ w'.stage = .refused → Found r i w'

variable [Observer σ]

theorem found_modify {j : Nat} {f : Worker σ → Worker σ}
    (hw : (r.modify j f).workers[i]? = some w) (hf : ∀ w : Worker σ, w.Rests (f w)) :
    r.Found i w := by
  obtain ⟨w', hw', rfl⟩ := getElem?_modify_eq_some hw
  refine .resting hw' ?_
  split
  · exact hf w'
  · exact .refl w'

theorem found_append {o : σ} {rest : List σ} {w' : Worker σ} (hstage : r.stage = .starting)
    (hpending : r.pending = o :: rest) (hobserver : w'.observer = o)
    (htask : w'.task = (Observer.background o).map (fun work => { work }))
    (hw' : w'.stage = .starting ∨ w'.stage = .refused)
    (hw : (r.workers ++ [w'])[i]? = some w) : r.Found i w := by
  rw [List.getElem?_append] at hw
  split at hw
  · exact .resting hw (.refl w)
  · next hi =>
    have hlen := (List.getElem?_eq_some_iff.mp hw).1
    obtain rfl : w = w' := by simpa using List.mem_of_getElem? hw
    refine .hired ?_ hstage hpending hobserver htask hw'
    rw [List.length_singleton] at hlen
    omega

theorem HostMove.found (hmove : r.HostMove new r') (hw : r'.workers[i]? = some w) :
    r.Found i w := by
  cases hmove with
  | launch hstage hpending htask =>
    exact found_append hstage hpending rfl htask.symm (.inl rfl) hw
  | refuseObserver hstage hpending hwork =>
    exact found_append hstage hpending rfl (by rw [hwork]; rfl) (.inr rfl) hw
  | proceed | shutdown => exact found_modify hw fun _ => ⟨rfl, rfl, rfl⟩
  | announce | dismiss => exact found_modify hw fun w => w.rests_tell _
  | _ => exact .resting hw (.refl w)

theorem HostMove.kept (hmove : r.HostMove new r') (hw : r.workers[i]? = some w) :
    ∃ w', r'.workers[i]? = some w' ∧ w.Rests w' := by
  have hmodify {j : Nat} {f : Worker σ → Worker σ} (hf : ∀ w : Worker σ, w.Rests (f w)) :
      ∃ w', (r.modify j f).workers[i]? = some w' ∧ w.Rests w' := by
    refine ⟨_, getElem?_modify_of_eq_some hw, ?_⟩
    split
    · exact hf w
    · exact .refl w
  have happend (w' : Worker σ) : ∃ w'', (r.workers ++ [w'])[i]? = some w'' ∧ w.Rests w'' := by
    refine ⟨w, ?_, .refl w⟩
    rw [List.getElem?_append_left (List.getElem?_eq_some_iff.mp hw).1, hw]
  cases hmove with
  | launch | refuseObserver => exact happend _
  | proceed | shutdown => exact hmodify fun _ => ⟨rfl, rfl, rfl⟩
  | announce | dismiss => exact hmodify fun w => w.rests_tell _
  | _ => exact ⟨w, hw, .refl w⟩

theorem HostMove.holder_eq (hmove : r.HostMove new r') : r'.holder = r.holder := by
  cases hmove <;> rfl

theorem HostMove.poisoned_eq (hmove : r.HostMove new r') : r'.poisoned = r.poisoned := by
  cases hmove <;> rfl

/-- The host uses the machine for ticks only, when nobody else has it. -/
theorem HostMove.use (hmove : r.HostMove new r') : new = [] ∧ r'.machine = r.machine ∨
    new = [.takes .tick, .gives .tick] ∧ r.stage = .ticking ∧ r.holder = none ∧
      ∃ t, r.machine.tick = .ok (t, r'.machine) := by
  cases hmove with
  | tick hstage hfree _ htick => exact .inr ⟨rfl, hstage, hfree, _, htick⟩
  | _ => exact .inl ⟨rfl, rfl⟩

/-- Only a request from outside requests shutdown. -/
theorem Moved.requested_eq {move : Move} (hmoved : r.Moved move new r') :
    r'.requested = (r.requested || move = .request) := by
  cases hmoved with
  | host hmove => cases hmove <;> exact (Bool.or_false _).symm
  | observer _ hmove => cases hmove <;> exact (Bool.or_false _).symm
  | use _ _ hmove => cases hmove <;> exact (Bool.or_false _).symm
  | retire | elapse => exact (Bool.or_false _).symm
  | request => exact (Bool.or_true _).symm

theorem Moved.refusal_eq {move : Move} (hmoved : r.Moved move new r') : r'.refusal = r.refusal := by
  cases hmoved with
  | host hmove => cases hmove <;> rfl
  | observer _ hmove => cases hmove <;> rfl
  | use _ _ hmove => cases hmove <;> rfl
  | retire | elapse | request => rfl

end Run

end Dcpu16
