import Dcpu16.Proofs.Host.Lock

/-! No update of the machine is lost.  The ledger, which carries out the uses of the machine one
after another, keeps the same machine, the same observers and the same counts as the run, so the
machine is what the uses made of it in their order. -/

namespace Dcpu16

variable {σ : Type}

/-- The ledger knows the worker: its observer, unless the thread is over, and its task. -/
structure Worker.Is (w : Worker σ) (p : Party σ) : Prop where
  observer : w.hasEnded = false → w.observer = p.observer
  work : w.task.map Task.work = p.work
  uses (t : Task) : w.task = some t → t.uses = p.uses

theorem Worker.Rests.is {w w' : Worker σ} {p : Party σ} (h : w.Rests w') (hp : w.Is p) :
    w'.Is p := by
  refine ⟨fun hended => ?_, by rw [h.task]; exact hp.work, fun t ht => hp.uses t (h.task ▸ ht)⟩
  rw [h.observer]
  exact hp.observer (by rwa [hasEnded, h.stage] at hended)

def Party.of [Observer σ] (o : σ) : Party σ := { observer := o, work := Observer.background o }

namespace Ledger

variable [Observer σ] {l : Ledger σ} {i : Nat} {p : Party σ}

@[simp] theorem replay_nil (l : Ledger σ) : l.replay [] = l := rfl

theorem replay_append (l : Ledger σ) (ms ns : List Mark) :
    l.replay (ms ++ ns) = (l.replay ms).replay ns := by
  simp [replay]

theorem perform_callback (hp : l.parties[i]? = some p) (round : Round) :
    l.perform (round.callback i) =
      { machine := (round.run p.observer l.machine).machine
        parties := l.parties.modify i
          ({ · with observer := (round.run p.observer l.machine).observer }) } := by
  cases round <;> simp [perform, Round.callback, callback, hp, Round.run]

theorem perform_use {work : Background} (hp : l.parties[i]? = some p) (hwork : p.work = some work) :
    l.perform (.use i) =
      { machine := (work.use p.uses l.machine).1
        parties := l.parties.modify i ({ · with uses := p.uses + 1 }) } := by
  obtain ⟨observer, _, uses⟩ := p
  simp only at hwork
  subst hwork
  simp [perform, hp]

end Ledger

namespace Run

variable [Observer σ]

/-- The ledger has the machine of the run, knows its workers, and has those yet to be started. -/
structure Accounted (l : Ledger σ) (r : Run σ) : Prop where
  machine : r.machine = l.machine
  worker (i : Nat) (w : Worker σ) : r.workers[i]? = some w → ∃ p, l.parties[i]? = some p ∧ w.Is p
  pending (k : Nat) (o : σ) : r.stage = .starting → r.pending[k]? = some o →
    l.parties[r.workers.length + k]? = some (.of o)
  works (i : Nat) (p : Party σ) : l.parties[i]? = some p → ∃ o : σ, p.work = Observer.background o

variable {l : Ledger σ} {r r' : Run σ} {new : List Mark} {i : Nat} {w : Worker σ}

/-- A change of worker `i` that the ledger follows. -/
theorem Accounted.modify {f : Worker σ → Worker σ} {g : Party σ → Party σ} {machine : Machine}
    (h : r.Accounted l) (hw : r.workers[i]? = some w)
    (hworkers : r'.workers = (r.modify i f).workers) (hmachine : r'.machine = machine)
    (hstage : r'.stage = r.stage) (hpending : r'.pending = r.pending)
    (hg : ∀ p, w.Is p → (f w).Is (g p)) (hwork : ∀ p, (g p).work = p.work) :
    r'.Accounted { machine, parties := l.parties.modify i g } := by
  refine ⟨hmachine, fun j w' hw' => ?_, fun k o hs ho => ?_, fun j p hp => ?_⟩
  · rcases modified_or_kept hw (hworkers ▸ hw') with ⟨rfl, rfl⟩ | ⟨hij, hw'⟩
    · obtain ⟨p, hp, his⟩ := h.worker i w hw
      exact ⟨g p, by simp [hp], hg p his⟩
    · obtain ⟨p, hp, his⟩ := h.worker j w' hw'
      exact ⟨p, by simp [hij, hp], his⟩
  · rw [hpending] at ho
    have hlt : i < r.workers.length := (List.getElem?_eq_some_iff.mp hw).1
    rw [hworkers, length_workers_modify, List.getElem?_modify_ne _ _ (by omega)]
    exact h.pending k o (hstage ▸ hs) ho
  · rw [List.getElem?_modify] at hp
    obtain ⟨p', hp', rfl⟩ := Option.map_eq_some_iff.mp hp
    obtain ⟨o, ho⟩ := h.works j p' hp'
    refine ⟨o, ?_⟩
    split
    · rw [hwork, ho]
    · exact ho

/-- A change of worker `i` that the ledger does not see. -/
theorem Accounted.keep {f : Worker σ → Worker σ} (h : r.Accounted l) (hw : r.workers[i]? = some w)
    (hworkers : r'.workers = (r.modify i f).workers) (hmachine : r'.machine = r.machine)
    (hstage : r'.stage = r.stage) (hpending : r'.pending = r.pending)
    (hf : ∀ p, w.Is p → (f w).Is p) : r'.Accounted l := by
  have h' := h.modify (g := fun p => p) hw hworkers (hmachine.trans h.machine) hstage hpending hf
    fun _ => rfl
  rwa [show l.parties.modify i (fun p => p) = l.parties from List.modify_id ..] at h'

theorem Accounted.observerMove (h : r.Accounted l) (hw : r.workers[i]? = some w)
    (hmove : r.ObserverMove i w new r') : r'.Accounted (l.replay new) := by
  obtain ⟨p, hp, his⟩ := h.worker i w hw
  have hended := hmove.not_hasEnded
  have hcallback (round : Round) (hstage : w.stage = round.during) :
      l.replay [.gives (round.callback i)] =
        { machine := (round.run w.observer r.machine).machine
          parties := l.parties.modify i
            ({ · with observer := (round.run w.observer r.machine).observer }) } := by
    have hobserver : w.observer = p.observer := his.observer hended
    rw [hobserver, h.machine]
    exact Ledger.perform_callback hp round
  cases hmove with
  | @leave round _ _ hstage | @panic round _ hstage =>
    rw [hcallback round hstage]
    exact h.modify hw rfl rfl rfl rfl (fun p hp => ⟨fun _ => rfl, hp.work, hp.uses⟩) fun _ => rfl
  | enter | decline | answer | hear | obey =>
    exact h.keep hw rfl rfl rfl rfl fun p hp => ⟨fun _ => hp.observer hended, hp.work, hp.uses⟩
  | depart => exact h.keep hw rfl rfl rfl rfl fun p hp =>
      ⟨by simp [Worker.hasEnded], hp.work, hp.uses⟩

theorem Accounted.taskMove {t : Task} (h : r.Accounted l) (hw : r.workers[i]? = some w)
    (ht : w.task = some t) (hmove : r.TaskMove i t new r') : r'.Accounted (l.replay new) := by
  have his (f : Task → Task) (uses : Nat) (hwork : (f t).work = t.work) (huses : (f t).uses = uses)
      (p : Party σ) (hp : w.Is p) :
      Worker.Is { w with task := w.task.map f } { p with uses } := by
    refine ⟨hp.observer, ?_, fun t' ht' => ?_⟩
    · rw [← hp.work, ht]
      exact congrArg some hwork
    · rw [ht] at ht'
      obtain rfl : f t = t' := Option.some.inj ht'
      exact huses
  have hsame (f : Task → Task) (hwork : (f t).work = t.work) (huses : (f t).uses = t.uses)
      (p : Party σ) (hp : w.Is p) : Worker.Is { w with task := w.task.map f } p := by
    rw [hp.uses t ht] at huses
    exact his f p.uses hwork huses p hp
  cases hmove with
  | take | decline | retire => exact h.keep hw rfl rfl rfl rfl (hsame _ rfl rfl)
  | give =>
    obtain ⟨p, hp, hparty⟩ := h.worker i w hw
    have hwork : p.work = some t.work := by rw [← hparty.work, ht, Option.map_some]
    have hreplay : l.replay [.gives (.use i)] = l.perform (.use i) := rfl
    rw [hreplay, Ledger.perform_use hp hwork, ← hparty.uses t ht, ← h.machine]
    exact h.modify hw rfl rfl rfl rfl (fun p hp => his _ _ rfl rfl p hp) fun _ => rfl

/-- Only taking on a worker leaves the host where it starts observers. -/
theorem HostMove.starting (hmove : r.HostMove new r') (hstage : r'.stage = .starting) :
    ∃ o w, r.stage = .starting ∧ r.pending = o :: r'.pending ∧ r'.workers = r.workers ++ [w] := by
  cases hmove with
  | launch hstarting hpending => exact ⟨_, _, hstarting, hpending, rfl⟩
  | settle _ _ hnext => rcases hnext with rfl | ⟨deadline, rfl⟩ <;> cases hstage
  | _ => cases hstage

theorem Accounted.hostMove (h : r.Accounted l) (hmove : r.HostMove new r') :
    r'.Accounted (l.replay new) := by
  have hparties : (l.replay new).parties = l.parties := by
    rcases hmove.use with ⟨rfl, -⟩ | ⟨rfl, -, -, t, htick⟩
    · rfl
    · rw [h.machine] at htick
      show (l.perform .tick).parties = l.parties
      simp only [Ledger.perform, htick]
  refine ⟨?_, fun j w' hw' => ?_, fun k o hs ho => ?_, fun j p hp => h.works j p (hparties ▸ hp)⟩
  · rcases hmove.use with ⟨rfl, hmachine⟩ | ⟨rfl, -, -, t, htick⟩
    · exact hmachine.trans h.machine
    · rw [h.machine] at htick
      show r'.machine = (l.perform .tick).machine
      simp only [Ledger.perform, htick]
  · rw [hparties]
    cases hmove.found hw' with
    | resting hw hrests =>
      obtain ⟨p, hp, his⟩ := h.worker j _ hw
      exact ⟨p, hp, hrests.is his⟩
    | hired hj hstage hpending hobserver htask =>
      subst hj
      refine ⟨_, h.pending 0 _ hstage (by rw [hpending]; rfl), fun _ => hobserver, ?_, ?_⟩
      · rw [htask, Option.map_map]
        exact Option.map_id' ..
      · intro t ht
        obtain ⟨work, -, rfl⟩ := Option.map_eq_some_iff.mp (htask.symm.trans ht)
        rfl
  · obtain ⟨o', w', hstage, hpending, hworkers⟩ := hmove.starting hs
    rw [hparties, hworkers, List.length_append, List.length_singleton, Nat.add_assoc,
      Nat.add_comm 1]
    exact h.pending (k + 1) o hstage (by rw [hpending]; exact ho)

theorem Accounted.happens (h : r.Accounted l) (hnext : r.Happens new r') :
    r'.Accounted (l.replay new) := by
  cases hnext with
  | host hmove => exact h.hostMove hmove
  | observer hw hmove => exact h.observerMove hw hmove
  | task hw ht hmove => exact h.taskMove hw ht hmove
  | outside => exact ⟨h.machine, h.worker, h.pending, h.works⟩

/-- Nothing spoils the machine as long as nobody panics with it. -/
theorem Accounted.sound (hcalm : Calm σ) (h : r.Accounted l) (hnext : r.Happens new r')
    (hsound : r.poisoned = false) : r'.poisoned = false := by
  cases hnext with
  | host hmove => exact hmove.poisoned_eq.trans hsound
  | observer hw hmove =>
    cases hmove with
    | @panic round _ _ hend =>
      cases round with
      | start => exact absurd hend (hcalm.onStart _ _)
      | tick => exact absurd hend (hcalm.onTick _ _)
    | _ => exact hsound
  | @task i w t _ _ hw ht hmove =>
    cases hmove with
    | give =>
      obtain ⟨p, hp, his⟩ := h.worker _ _ hw
      obtain ⟨o, ho⟩ := h.works _ p hp
      have hwork : Observer.background o = some t.work := by
        rw [← ho, ← his.work, ht, Option.map_some]
      simp [hsound, hcalm.use o t.work t.uses r.machine hwork]
    | _ => exact hsound
  | outside => exact hsound

end Run

end Dcpu16
