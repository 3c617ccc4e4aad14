import Dcpu16.Proofs.Host.Conversation

/-! Requests to stop.  Once an observer has answered that it wants to stop, the answer is on its way
to the host, or the host has read it, or the host has stopped; none of these is left for a tick. -/

namespace Dcpu16

variable {σ : Type}

/-- An observer answers that it wants to stop. -/
def Mark.AsksToStop (m : Mark) : Prop := ∃ i, m = .answers i .shutdown

namespace Run

variable {n : Nat} {ms new : List Mark} {r r' : Run σ} {i : Nat} {w : Worker σ}

/-- A request to stop is on its way, or read, or the host has stopped. -/
def Stopping (r : Run σ) : Prop :=
  r.stop = true ∨ (∃ round j name, r.stage = .gathering round j (some name)) ∨
    ∃ (i : Nat) (w : Worker σ), r.workers[i]? = some w ∧ .shutdown ∈ w.outbox

theorem Stopping.modify {f : Worker σ → Worker σ} (h : r.Stopping)
    (hworkers : r'.workers = (r.modify i f).workers) (hstage : r'.stage = r.stage)
    (hstop : r'.stop = r.stop)
    (hf : ∀ w : Worker σ, .shutdown ∈ w.outbox → .shutdown ∈ (f w).outbox) : r'.Stopping := by
  rcases h with h | h | ⟨j, w, hw, hout⟩
  · exact .inl (hstop.trans h)
  · exact .inr (.inl (by rwa [hstage]))
  · refine .inr (.inr ⟨j, _, hworkers ▸ getElem?_modify_of_eq_some hw, ?_⟩)
    split
    · exact hf w hout
    · exact hout

theorem Stopping.hostMove [Observer σ] (h : r.Stopping) (hmove : r.HostMove new r') :
    r'.Stopping := by
  rcases h with h | ⟨round, j, name, h⟩ | ⟨j, w, hw, hout⟩
  · cases hmove <;> first | exact .inl h | exact .inl rfl
  · cases hmove with
    | proceed hstage =>
      cases hstage.symm.trans h
      exact .inr (.inl ⟨_, _, _, rfl⟩)
    | shutdown => exact .inr (.inl ⟨_, _, _, rfl⟩)
    | lose | yield | miss | decline | interrupt | refuse | refuseObserver | abandon =>
      exact .inl rfl
    | launch hstage | begin hstage | ready hstage | settle hstage | go hstage | tick hstage
    | announce hstage | gather hstage | resume hstage | dismiss hstage | await hstage | join hstage
    | joinTask hstage | wrap hstage | close hstage => cases hstage.symm.trans h
  · cases hmove with
    | launch =>
      refine .inr (.inr ⟨j, w, ?_, hout⟩)
      exact (List.getElem?_append_left (List.getElem?_eq_some_iff.mp hw).1).trans hw
    | proceed hstage hj hread =>
      refine .inr (.inr ⟨j, _, getElem?_modify_of_eq_some hw, ?_⟩)
      split
      · next hij =>
        subst hij
        obtain rfl := Option.some.inj (hj.symm.trans hw)
        simpa [hread] using hout
      · exact hout
    | shutdown => exact .inr (.inl ⟨_, _, _, rfl⟩)
    | announce | dismiss =>
      refine .inr (.inr ⟨j, _, getElem?_modify_of_eq_some hw, ?_⟩)
      split
      · rwa [Worker.outbox_tell]
      · exact hout
    | refuse | refuseObserver | abandon | lose | yield | miss | decline | interrupt =>
      exact .inl rfl
    | _ => exact .inr (.inr ⟨j, w, hw, hout⟩)

theorem Stopping.observerMove [Observer σ] (h : r.Stopping) (hmove : r.ObserverMove i w new r') :
    r'.Stopping := by
  cases hmove with
  | answer => exact h.modify rfl rfl rfl fun w hw => List.mem_append_left _ hw
  | _ => exact h.modify rfl rfl rfl fun w hw => hw

theorem Stopping.taskMove {t : Task} (h : r.Stopping) (hmove : r.TaskMove i t new r') :
    r'.Stopping := by
  cases hmove <;> exact h.modify rfl rfl rfl fun w hw => hw

theorem Stopping.happens [Observer σ] (h : r.Stopping) (hnext : r.Happens new r') :
    r'.Stopping := by
  cases hnext with
  | host hmove => exact h.hostMove hmove
  | observer _ hmove => exact h.observerMove hmove
  | task _ _ hmove => exact h.taskMove hmove
  | outside => exact h

/-- The host does not tick once a stop is asked for. -/
theorem Converses.not_stopping (h : r.Converses n ms) (hstage : r.stage = .ticking) :
    ¬r.Stopping := by
  have hteam := h.team
  rw [hstage] at hteam
  rintro (hstop | ⟨round, j, name, hgather⟩ | ⟨j, w, hw, hout⟩)
  · cases hteam.1.symm.trans hstop
  · cases hstage.symm.trans hgather
  · have hm := h.meets j w hw
    rw [hstage] at hm
    rw [hm.1.outbox] at hout
    cases hout

/-- Who answers that it wants to stop has its answer on the way. -/
theorem ObserverMove.stopping [Observer σ] (hw : r.workers[i]? = some w)
    (hmove : r.ObserverMove i w new r') {m : Mark} (hm : m ∈ new) (hasks : m.AsksToStop) :
    r'.Stopping := by
  obtain ⟨j, rfl⟩ := hasks
  cases hmove with
  | @answer reply =>
    obtain ⟨rfl, rfl⟩ : j = i ∧ Reply.shutdown = reply := by simpa using hm
    refine .inr (.inr ⟨j, _, getElem?_modify_of_eq_some hw, ?_⟩)
    simp
  | _ => simp at hm

/-- The host heeds requests to stop: no tick comes after one. -/
structure Heeds (ms : List Mark) (r : Run σ) : Prop where
  order : ms.Pairwise fun a b => a.AsksToStop → b ≠ .takes .tick
  asked (m : Mark) : m ∈ ms → m.AsksToStop → r.Stopping

theorem Heeds.extend (h : r.Heeds ms) (hstopping : r.Stopping → r'.Stopping)
    (hnew : ∀ m ∈ new, m.AsksToStop → r'.Stopping)
    (hpair : new.Pairwise fun a b => a.AsksToStop → b ≠ .takes .tick)
    (htick : .takes .tick ∈ new → ¬r.Stopping) : r'.Heeds (ms ++ new) := by
  refine ⟨List.pairwise_append.mpr ⟨h.order, hpair, ?_⟩, fun m hm hasks => ?_⟩
  · rintro a ha _ hb hasks rfl
    exact htick hb (h.asked a ha hasks)
  · rcases List.mem_append.mp hm with hm | hm
    · exact hstopping (h.asked m hm hasks)
    · exact hnew m hm hasks

theorem Heeds.happens [Observer σ] (h : r.Heeds ms) (hconverses : r.Converses n ms)
    (hnext : r.Happens new r') : r'.Heeds (ms ++ new) := by
  have hstopping := fun hs : r.Stopping => hs.happens hnext
  cases hnext with
  | host hmove =>
    rcases hmove.use with ⟨rfl, -⟩ | ⟨rfl, hstage, -⟩
    · exact h.extend hstopping nofun .nil nofun
    · exact h.extend hstopping (by simp [Mark.AsksToStop]) (by simp [Mark.AsksToStop])
        fun _ => hconverses.not_stopping hstage
  | observer hw hmove =>
    refine h.extend hstopping (fun m hm hasks => hmove.stopping hw hm hasks) ?_ fun htick => ?_
    · cases hmove <;> simp
    · exact absurd htick hmove.not_takes_tick
  | task _ _ hmove =>
    refine h.extend hstopping ?_ ?_ ?_ <;> cases hmove <;> simp [Mark.AsksToStop]
  | outside => exact h.extend hstopping nofun .nil nofun

end Run

end Dcpu16
