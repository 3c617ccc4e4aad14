import Dcpu16.Proofs.Host.Handoff
import Dcpu16.Proofs.Machine.Running

/-! Observers that leave the machine alone.  What they answer in a round follows from the machine
that the run begins with, and from nothing else: whatever the order of the moves, the host hears the
same answers, and stops in the same round for the same reason. -/

namespace Dcpu16

variable {σ : Type}

/-! ### What passive observers do -/

/-- Observers that only look at the machine, never panic, and bring no task. -/
structure Passive (σ : Type) [Observer σ] : Prop where
  machine (round : Round) (o : σ) (m : Machine) : (round.run o m).machine = m
  ending (round : Round) (o : σ) (m : Machine) : (round.run o m).ending ≠ .panic
  background (o : σ) : Observer.background o = none

theorem Passive.calm [Observer σ] (h : Passive σ) : Calm σ :=
  ⟨h.ending .start, h.ending .tick,
    fun o work _ _ hwork => by cases (h.background o).symm.trans hwork⟩

/-- The round after `n` ticks. -/
def Round.ofTicks : Nat → Round
  | 0 => .start
  | _ + 1 => .tick

namespace Observer

variable [Observer σ]

/-- The observer after its callbacks in the first `n` rounds of a run from machine `m`. -/
def afterRounds (m : Machine) (o : σ) : Nat → σ
  | 0 => o
  | n + 1 => ((Round.ofTicks n).run (afterRounds m o n) (m.afterTicks n)).observer

/-- How the callback ends in the round after `n` ticks. -/
def ending (m : Machine) (n : Nat) (o : σ) : Ending :=
  ((Round.ofTicks n).run (afterRounds m o n) (m.afterTicks n)).ending

/-- Whether the observer asks to stop in the round after `n` ticks. -/
def asks (m : Machine) (n : Nat) (o : σ) : Bool := ending m n o = .reply .shutdown

/-- The name of the first observer that asks to stop in the round after `n` ticks. -/
def first? (m : Machine) (n : Nat) (os : List σ) : Option String := (os.find? (asks m n)).map name

variable {m : Machine} {n j : Nat} {os : List σ} {o : σ}

theorem first?_take_succ (ho : os[j]? = some o) :
    first? m n (os.take (j + 1)) =
      (first? m n (os.take j)).or (if asks m n o then some (name o) else none) := by
  rw [first?, List.take_add_one, ho, List.find?_append, first?]
  cases (os.take j).find? (asks m n) with
  | some other => rfl
  | none =>
    simp only [Option.toList_some, List.find?_singleton, Option.none_or, Option.map_none]
    split <;> rfl

end Observer

/-! ### What they have heard -/

/-- The number of callbacks of observer `i` that are over in a trace. -/
def heard (i : Nat) (ms : List Mark) : Nat :=
  ms.count (.gives (.onStart i)) + ms.count (.gives (.onTick i))

@[simp] theorem heard_append (i : Nat) (ms ns : List Mark) :
    heard i (ms ++ ns) = heard i ms + heard i ns := by
  simp only [heard, List.count_append]
  omega

theorem heard_view (i : Nat) (ms : List Mark) : heard i (view i ms) = heard i ms := by
  have hstart : Mark.concerns i (.gives (.onStart i)) = true := by
    simp [Mark.concerns, Section.concerns]
  have htick : Mark.concerns i (.gives (.onTick i)) = true := by
    simp [Mark.concerns, Section.concerns]
  rw [heard, view, List.count_filter hstart, List.count_filter htick, heard]

theorem heard_gives (i : Nat) (round : Round) : heard i [.gives (round.callback i)] = 1 := by
  cases round <;> simp [heard, Round.callback]

theorem heard_gives_of_ne {i j : Nat} (h : i ≠ j) (round : Round) :
    heard j [.gives (round.callback i)] = 0 := by
  cases round <;> simp [heard, Round.callback, h]

theorem heard_takes (i : Nat) (s : Section) : heard i [.takes s] = 0 := by simp [heard]

theorem heard_script (i n : Nat) : heard i (script i n) = n + 1 := by
  induction n with
  | zero => simp [script, Section.marks, heard]
  | succ n ih =>
    rw [script, heard_append, heard_append, ih]
    simp [Section.marks, heard]

theorem heard_prior (i n : Nat) : heard i (prior i n (Round.ofTicks n)) = n := by
  cases n with
  | zero => rfl
  | succ n =>
    rw [Round.ofTicks, prior, heard_append, Nat.add_sub_cancel, heard_script]
    rfl

theorem HostStage.Team.round_eq {stage : HostStage} {ticks started pending n i : Nat} {stop : Bool}
    {round : Round} (h : stage.Team ticks started pending n stop)
    (hstanding : stage.standing i ticks = .owes round) : round = Round.ofTicks ticks := by
  have hstart (hzero : ticks = 0) : Round.start = Round.ofTicks ticks := by rw [hzero]; rfl
  have htick (hpos : 0 < ticks) : Round.tick = Round.ofTicks ticks := by
    obtain ⟨n, rfl⟩ := Nat.exists_eq_add_of_lt hpos
    rfl
  cases stage with
  | starting =>
    cases hstanding
    exact hstart h.2.1
  | gathering round' j first =>
    simp only [HostStage.standing] at hstanding
    split at hstanding
    · cases hstanding
    · cases hstanding
      cases round with
      | start => exact hstart h.2.1
      | tick => exact htick h.2.1
  | announcing j =>
    simp only [HostStage.standing] at hstanding
    split at hstanding
    · cases hstanding
      exact htick h.2.1
    · cases hstanding
  | _ => cases hstanding

/-- Who is in a callback is in that of the latest round, and has been through the ones before. -/
theorem Run.Converses.during {r : Run σ} {n : Nat} {ms : List Mark} {i : Nat} {w : Worker σ}
    {round : Round} (h : r.Converses n ms) (hw : r.workers[i]? = some w)
    (hstage : w.stage = round.during) :
    round = Round.ofTicks r.ticks ∧ heard i ms = r.ticks := by
  have hmeets := h.meets i w hw
  rw [← heard_view]
  cases hstanding : r.stage.standing i r.ticks with
  | idle seen =>
    rw [hstanding] at hmeets
    exact absurd (hstage.symm.trans hmeets.1.stage) (by simp)
  | owes r' =>
    rw [hstanding] at hmeets
    have hround := h.team.round_eq hstanding
    cases hmeets with
    | ordered hs | answered hs | answering hs => exact absurd (hstage.symm.trans hs) (by simp)
    | before hs => exact absurd (hs.symm.trans hstage) (by simp)
    | during hs _ _ hview =>
      refine ⟨(Round.during_inj.mp (hstage.symm.trans hs)).trans hround, ?_⟩
      rw [hview, hround, heard_append, heard_prior, heard_takes, Nat.add_zero]
  | dismissed =>
    rw [hstanding] at hmeets
    obtain ⟨-, hview⟩ := hmeets
    cases round with
    | start =>
      rw [hstage] at hview
      obtain ⟨hzero, hview⟩ := hview
      rw [hzero, hview]
      exact ⟨rfl, heard_takes i _⟩
    | tick => rw [hstage] at hview; exact hview.elim

/-! ### What the host is going to hear -/

namespace Worker

variable [Observer σ]

/-- The worker of observer `o` is where the rounds that it has been through take it, and the answers
that it has on the way are those of the round after `ticks` ticks. -/
structure Follows (w : Worker σ) (o : σ) (m : Machine) (rounds ticks : Nat) : Prop where
  name : w.name = Observer.name o
  observer : w.hasEnded = false → w.observer = Observer.afterRounds m o rounds
  answering (reply : Reply) : w.stage = .answering reply → Observer.ending m ticks o = .reply reply
  answered (reply : Reply) : reply ∈ w.outbox → Observer.ending m ticks o = .reply reply

variable {w : Worker σ} {o : σ} {m : Machine} {rounds ticks : Nat}

theorem Follows.tell (h : w.Follows o m rounds ticks) (order : Order) :
    (w.tell order).Follows o m rounds ticks := by
  unfold Worker.tell
  split
  · exact h
  · exact ⟨h.name, h.observer, h.answering, h.answered⟩

theorem Follows.read {reply : Reply} {rest : List Reply} (h : w.Follows o m rounds ticks)
    (hout : w.outbox = reply :: rest) :
    Follows { w with outbox := rest } o m rounds ticks :=
  ⟨h.name, h.observer, h.answering, fun reply' hreply =>
    h.answered reply' (hout ▸ List.mem_cons_of_mem _ hreply)⟩

end Worker

/-- What is known of the host's stage after `ticks` ticks from the answers of the round. -/
def HostStage.Foretold [Observer σ] (m : Machine) (ticks : Nat) (os : List σ) : HostStage → Prop
  | starting | announcing _ => True
  | abandoning _ => False
  | gathering _ j first => first = Observer.first? m ticks (os.take j)
  | checking | ticking | pausing _ => Observer.first? m ticks os = none
  | dismissing _ cause | joining _ cause | joiningTask _ cause | closing cause =>
    ∃ name, Observer.first? m ticks os = some name ∧ cause = .ok (.observer name)
  | done result => ∃ name summary, Observer.first? m ticks os = some name ∧ result = .ok summary ∧
    summary.reason = .observer name ∧ summary.ticks = ticks ∧
    summary.cycles = (m.afterTicks ticks).cycles

namespace Run

variable [Observer σ]

/-- A run of passive observers `os` on machine `m` that nobody outside interferes with. -/
structure Foreseen (m : Machine) (os : List σ) (ms : List Mark) (r : Run σ) : Prop where
  requested : r.requested = false
  refusal (n : Nat) : r.refusal n = none
  machine : r.machine = m.afterTicks r.ticks
  worker (i : Nat) (w : Worker σ) : r.workers[i]? = some w →
    ∃ o, os[i]? = some o ∧ w.Follows o m (heard i ms) r.ticks
  pending : r.stage = .starting → r.pending = os.drop r.workers.length
  silent (n : Nat) : n < r.ticks → Observer.first? m n os = none
  host : r.stage.Foretold m r.ticks os

variable {m : Machine} {os : List σ} {ms new : List Mark} {r r' : Run σ} {i : Nat} {w : Worker σ}
  {o : σ}

theorem Foreseen.start (hfresh : r.Fresh) (hrequested : r.requested = false)
    (hrefusal : ∀ n, r.refusal n = none) : r.Foreseen r.machine r.pending [] := by
  refine ⟨hrequested, hrefusal, by rw [hfresh.ticks]; rfl, fun i w hw => ?_, fun _ => ?_,
    fun n hn => ?_, ?_⟩
  · simp [hfresh.workers] at hw
  · rw [hfresh.workers]
    rfl
  · simp [hfresh.ticks] at hn
  · rw [hfresh.stage]
    trivial

/-- A change of worker `i` that the host does not see yet. -/
theorem Foreseen.modify {f : Worker σ → Worker σ} (h : r.Foreseen m os ms)
    (hw : r.workers[i]? = some w) (hworkers : r'.workers = (r.modify i f).workers)
    (hhost : r'.stage = r.stage ∧ r'.ticks = r.ticks ∧ r'.pending = r.pending)
    (hquiet : r'.requested = r.requested ∧ r'.refusal = r.refusal)
    (hmachine : r'.machine = r.machine)
    (hf : ∀ o, w.Follows o m (heard i ms) r.ticks → (f w).Follows o m (heard i (ms ++ new)) r.ticks)
    (hnew : ∀ j, i ≠ j → heard j new = 0) : r'.Foreseen m os (ms ++ new) := by
  obtain ⟨hstage, hticks, hpending⟩ := hhost
  refine ⟨hquiet.1.trans h.requested, fun n => hquiet.2 ▸ h.refusal n, ?_, fun j w' hw' => ?_,
    ?_, ?_, ?_⟩
  · rw [hmachine, hticks]
    exact h.machine
  · rw [hticks]
    rcases modified_or_kept hw (hworkers ▸ hw') with ⟨rfl, rfl⟩ | ⟨hij, hw'⟩
    · obtain ⟨o, ho, hfollows⟩ := h.worker i w hw
      exact ⟨o, ho, hf o hfollows⟩
    · rw [heard_append, hnew j hij]
      exact h.worker j w' hw'
  · rw [hstage, hpending, hworkers, length_workers_modify]
    exact h.pending
  · rw [hticks]
    exact h.silent
  · rw [hstage, hticks]
    exact h.host

theorem Foreseen.observerMove {n : Nat} (hpassive : Passive σ) (h : r.Foreseen m os ms)
    (hconverses : r.Converses n ms) (hsound : r.poisoned = false) (hw : r.workers[i]? = some w)
    (hmove : r.ObserverMove i w new r') : r'.Foreseen m os (ms ++ new) := by
  have hended := hmove.not_hasEnded
  cases hmove with
  | enter hstage =>
    refine h.modify hw rfl ⟨rfl, rfl, rfl⟩ ⟨rfl, rfl⟩ rfl (fun o ho => ?_)
      fun j _ => heard_takes j _
    rw [heard_append, heard_takes]
    exact ⟨ho.name, fun _ => ho.observer hended, fun reply hs => absurd hs (by simp), ho.answered⟩
  | decline _ _ hpoisoned => cases hpoisoned.symm.trans hsound
  | @leave round reply _ hstage hend =>
    -- The callback is that of the latest round, and its answer the one foreseen.
    obtain ⟨hround, hheard⟩ := hconverses.during hw hstage
    refine h.modify hw rfl ⟨rfl, rfl, rfl⟩ ⟨rfl, rfl⟩ (hpassive.machine ..) (fun o ho => ?_)
      fun j hij => heard_gives_of_ne hij round
    have hobserver := ho.observer hended
    rw [hheard] at hobserver
    rw [h.machine, hobserver, hround] at hend
    rw [heard_append, heard_gives, hheard]
    refine ⟨ho.name, fun _ => ?_, fun reply' hs => ?_, ho.answered⟩
    · simp only [h.machine, hobserver, hround]
      rfl
    · obtain rfl : reply = reply' := by simpa using hs
      exact hend
  | panic hstage hend => exact absurd hend (hpassive.ending _ _ _)
  | answer hstage =>
    refine h.modify hw rfl ⟨rfl, rfl, rfl⟩ ⟨rfl, rfl⟩ rfl (fun o ho => ?_)
      fun j _ => by simp [heard]
    rw [heard_append]
    refine ⟨ho.name, fun _ => ?_, nofun, fun reply hreply => ?_⟩
    · simpa [heard] using ho.observer hended
    · rcases List.mem_append.mp hreply with hreply | hreply
      · exact ho.answered reply hreply
      · obtain rfl := List.mem_singleton.mp hreply
        exact ho.answering _ hstage
  | hear hstage | obey hstage =>
    refine h.modify hw rfl ⟨rfl, rfl, rfl⟩ ⟨rfl, rfl⟩ rfl (fun o ho => ?_) fun j _ => rfl
    rw [List.append_nil]
    exact ⟨ho.name, fun _ => ho.observer hended, nofun, ho.answered⟩
  | depart hstage =>
    refine h.modify hw rfl ⟨rfl, rfl, rfl⟩ ⟨rfl, rfl⟩ rfl (fun o ho => ?_) fun j _ => rfl
    rw [List.append_nil]
    exact ⟨ho.name, nofun, nofun, ho.answered⟩

/-! ### Moves of the host -/

theorem HostMove.heard_eq (hmove : r.HostMove new r') (i : Nat) :
    heard i (ms ++ new) = heard i ms := by
  rcases hmove.use with ⟨rfl, -⟩ | ⟨rfl, -⟩
  · rw [List.append_nil]
  · simp [heard]

/-- The host takes the observers on in their order. -/
theorem Foreseen.hired {n : Nat} {rest : List σ} (h : r.Foreseen m os ms)
    (hconverses : r.Converses n ms) (hstage : r.stage = .starting)
    (hpending : r.pending = o :: rest) :
    os[r.workers.length]? = some o ∧ rest = os.drop (r.workers.length + 1) ∧
      heard r.workers.length ms = 0 := by
  have hdrop := (h.pending hstage).symm.trans hpending
  have hteam := hconverses.team
  rw [hstage] at hteam
  refine ⟨?_, ?_, ?_⟩
  · have hhead := congrArg (·[0]?) hdrop
    simpa using hhead
  · have htail := congrArg List.tail hdrop
    simpa using htail.symm
  · rw [← heard_view, hconverses.absent _ (Nat.le_refl _) hteam.2.1]
    rfl

theorem Foreseen.worker_hostMove {n : Nat} (h : r.Foreseen m os ms) (hconverses : r.Converses n ms)
    (hmove : r.HostMove new r') (hw : r'.workers[i]? = some w) :
    ∃ o, os[i]? = some o ∧ w.Follows o m (heard i (ms ++ new)) r'.ticks := by
  rw [hmove.heard_eq]
  have hmodify {j : Nat} {f : Worker σ → Worker σ} (hw : (r.modify j f).workers[i]? = some w)
      (hf : ∀ w o, r.workers[j]? = some w → w.Follows o m (heard i ms) r.ticks →
        (f w).Follows o m (heard i ms) r.ticks) :
      ∃ o, os[i]? = some o ∧ w.Follows o m (heard i ms) r.ticks := by
    obtain ⟨w', hw', rfl⟩ := getElem?_modify_eq_some hw
    obtain ⟨o, ho, hfollows⟩ := h.worker i w' hw'
    refine ⟨o, ho, ?_⟩
    split
    · next hij => exact hf w' o (hij ▸ hw') hfollows
    · exact hfollows
  cases hmove with
  | launch hstage hpending =>
    obtain ⟨ho, -, hheard⟩ := h.hired hconverses hstage hpending
    rw [List.getElem?_append] at hw
    split at hw
    · exact h.worker i w hw
    · next hi =>
      obtain rfl : w = _ := by simpa using List.mem_of_getElem? hw
      have hlt := (List.getElem?_eq_some_iff.mp hw).1
      obtain rfl : i = r.workers.length := by
        rw [List.length_singleton] at hlt
        omega
      rw [hheard]
      exact ⟨_, ho, rfl, fun _ => rfl, nofun, nofun⟩
  | refuseObserver _ _ _ hrefusal => cases (h.refusal _).symm.trans hrefusal
  | proceed _ hj hout | shutdown _ hj hout =>
    refine hmodify hw fun w' o hw' hfollows => ?_
    obtain rfl := Option.some.inj (hj.symm.trans hw')
    exact hfollows.read hout
  | announce | dismiss => exact hmodify hw fun w' o _ hfollows => hfollows.tell _
  | tick hstage =>
    -- Before a tick nobody has anything to say.
    obtain ⟨o, ho, hfollows⟩ := h.worker i w hw
    have hmeets := hconverses.meets i w hw
    rw [hstage] at hmeets
    refine ⟨o, ho, hfollows.name, hfollows.observer, fun reply hs => ?_, fun reply hreply => ?_⟩
    · simp [hmeets.1.stage] at hs
    · simp [hmeets.1.outbox] at hreply
  | _ => exact h.worker i w hw

theorem Foreseen.heard_reply {reply : Reply} {rest : List Reply} (h : r.Foreseen m os ms)
    (hw : r.workers[i]? = some w) (hout : w.outbox = reply :: rest) :
    Observer.first? m r.ticks (os.take (i + 1)) =
      (Observer.first? m r.ticks (os.take i)).or
        (if reply = .shutdown then some w.name else none) := by
  obtain ⟨o, ho, hfollows⟩ := h.worker i w hw
  have hreply := hfollows.answered reply (by rw [hout]; exact List.mem_cons_self)
  rw [Observer.first?_take_succ ho, hfollows.name]
  simp [Observer.asks, hreply]

omit [Observer σ] in
theorem result?_close_ok {reason : StopReason} (hsound : r.poisoned = false) :
    (r.close (.ok reason)).result? = some (.ok {
      cycles := r.machine.cycles, ticks := r.ticks, elapsed := r.elapsed, reason }) := by
  simp [close, hsound, result?, report]

theorem Foreseen.host_hostMove (h : r.Foreseen m os ms) (hconverses : r.Converses os.length ms)
    (hsound : r.poisoned = false) (hmove : r.HostMove new r') :
    r'.stage.Foretold m r'.ticks os := by
  have hhost := h.host
  have hteam := hconverses.team
  have hall {j : Nat} {round : Round} {first : Option String}
      (hstage : r.stage = .gathering round j first) (hj : r.workers[j]? = none) :
      first = Observer.first? m r.ticks os := by
    rw [hstage] at hhost hteam
    have hlength : r.workers.length = os.length := by cases round <;> exact hteam.2.2
    have htake : os.take j = os :=
      List.take_of_length_le (hlength ▸ List.getElem?_eq_none_iff.mp hj)
    rwa [HostStage.Foretold, htake] at hhost
  cases hmove with
  | launch hstage => rw [hstage]; trivial
  | refuse _ _ hrefusal | refuseObserver _ _ _ hrefusal =>
    cases (h.refusal _).symm.trans hrefusal
  | begin hstage | gather hstage => rfl
  | abandon hstage =>
    rw [hstage] at hhost
    exact hhost.elim
  | proceed hstage hw hout =>
    rw [hstage] at hhost
    obtain rfl : _ = _ := hhost
    have hreply := h.heard_reply hw hout
    rw [if_neg nofun, Option.or_none] at hreply
    exact hreply.symm
  | shutdown hstage hw hout =>
    rw [hstage] at hhost
    obtain rfl : _ = _ := hhost
    have hreply := h.heard_reply hw hout
    rw [if_pos rfl, Option.or_some] at hreply
    exact hreply.symm
  | lose hstage hw _ hended =>
    have hmeets := hconverses.meets _ _ hw
    simp only [hstage, HostStage.standing, if_neg (Nat.lt_irrefl _)] at hmeets
    cases hmeets.not_hasEnded.symm.trans hended
  | miss hstage hw hended =>
    have hmeets := hconverses.meets _ _ hw
    simp only [hstage, HostStage.standing, if_neg (Nat.lt_irrefl _)] at hmeets
    cases hmeets.1.not_hasEnded.symm.trans hended
  | yield hstage hj => exact ⟨_, (hall hstage hj).symm, rfl⟩
  | ready hstage hj => exact (hall hstage hj).symm
  | settle hstage hj hnext =>
    rcases hnext with rfl | ⟨deadline, rfl⟩
    · exact (hall hstage hj).symm
    · exact (hall hstage hj).symm
  | interrupt _ hrequested => cases h.requested.symm.trans hrequested
  | decline _ _ hpoisoned => cases hsound.symm.trans hpoisoned
  | go hstage | resume hstage =>
    rw [hstage] at hhost
    exact hhost
  | tick | announce => trivial
  | dismiss hstage | await hstage | join hstage | joinTask hstage | wrap hstage =>
    rw [hstage] at hhost
    exact hhost
  | close hstage _ hresult =>
    rw [hstage] at hhost
    obtain ⟨name, hfirst, rfl⟩ := hhost
    rw [result?_close_ok hsound] at hresult
    obtain rfl := Option.some.inj hresult
    exact ⟨name, _, hfirst, rfl, rfl, rfl, congrArg Machine.cycles h.machine⟩

theorem Foreseen.silent_hostMove (h : r.Foreseen m os ms) (hmove : r.HostMove new r') {n : Nat}
    (hn : n < r'.ticks) : Observer.first? m n os = none := by
  cases hmove with
  | tick hstage =>
    rcases Nat.lt_or_eq_of_le (Nat.le_of_lt_succ hn) with hlt | rfl
    · exact h.silent n hlt
    · have hhost := h.host
      rw [hstage] at hhost
      exact hhost
  | _ => exact h.silent n hn

theorem Foreseen.machine_hostMove (h : r.Foreseen m os ms) (hmove : r.HostMove new r') :
    r'.machine = m.afterTicks r'.ticks := by
  cases hmove with
  | tick _ _ _ htick =>
    obtain ⟨t, hnext⟩ := m.exists_tick_afterTicks r.ticks
    rw [h.machine, hnext] at htick
    exact (congrArg Prod.snd (Except.ok.inj htick)).symm
  | _ => exact h.machine

theorem Accounted.task_eq_none {l : Ledger σ} (hpassive : Passive σ) (h : r.Accounted l)
    (hw : r.workers[i]? = some w) : w.task = none := by
  obtain ⟨p, hp, his⟩ := h.worker i w hw
  obtain ⟨o, ho⟩ := h.works i p hp
  have hwork := his.work
  rw [ho, hpassive.background, Option.map_eq_none_iff] at hwork
  exact hwork

/-- No move of the host or of an observer tells anything unforeseen. -/
theorem Foreseen.moved {move : Move} {l : Ledger σ} (hpassive : Passive σ)
    (h : r.Foreseen m os ms) (horderly : r.Orderly os.length l ms) (hrequest : move ≠ .request)
    (hmoved : r.Moved move new r') : r'.Foreseen m os (ms ++ new) := by
  have hrequested : r'.requested = false := by
    rw [hmoved.requested_eq, h.requested]
    simp [hrequest]
  have hrefusal (n : Nat) : r'.refusal n = none := by
    rw [hmoved.refusal_eq]
    exact h.refusal n
  cases hmoved with
  | host hmove =>
    refine ⟨hrequested, hrefusal, h.machine_hostMove hmove,
      fun i w hw => h.worker_hostMove horderly.converses hmove hw, fun hstage => ?_,
      fun n hn => h.silent_hostMove hmove hn,
      h.host_hostMove horderly.converses horderly.sound hmove⟩
    obtain ⟨o, w, hstarting, hpending, hworkers⟩ := hmove.starting hstage
    rw [hworkers, List.length_append, List.length_singleton]
    exact (h.hired horderly.converses hstarting hpending).2.1
  | observer hw hmove => exact h.observerMove hpassive horderly.converses horderly.sound hw hmove
  | use hw ht | retire hw ht => cases (horderly.accounted.task_eq_none hpassive hw).symm.trans ht
  | elapse =>
    rw [List.append_nil]
    exact ⟨hrequested, hrefusal, h.machine, h.worker, h.pending, h.silent, h.host⟩
  | request => exact absurd rfl hrequest

/-- Whatever the order of the moves, the run goes as foreseen. -/
theorem foreseen_of_follow {r₀ : Run σ} {moves : List (Nat × Move)} (hpassive : Passive σ)
    (hfresh : r₀.Fresh) (hrequested : r₀.requested = false) (hrefusal : ∀ n, r₀.refusal n = none)
    (hquiet : ∀ p ∈ moves, p.2 ≠ .request) (hfollow : r₀.follow moves = some (ms, r)) :
    r.Orderly r₀.pending.length (.start r₀.machine r₀.pending) ms ∧
      r.Foreseen r₀.machine r₀.pending ms := by
  rw [← List.nil_append ms]
  refine follow_induction_of_moves (A := (· ≠ .request))
    (P := fun ms r => r.Orderly r₀.pending.length (.start r₀.machine r₀.pending) ms ∧
      r.Foreseen r₀.machine r₀.pending ms)
    (fun ms r now h => ?_) (fun ms r move new r' h hmove hmoved => ?_)
    ⟨hfresh.orderly, .start hfresh hrequested hrefusal⟩ hquiet hfollow
  · obtain ⟨horderly, h⟩ := h
    have hnow : (r.advanceTo now).Orderly _ _ (ms ++ []) :=
      horderly.happens hpassive.calm .outside
    rw [List.append_nil] at hnow
    exact ⟨hnow, h.requested, h.refusal, h.machine, h.worker, h.pending, h.silent, h.host⟩
  · exact ⟨h.1.happens hpassive.calm hmoved.happens, h.2.moved hpassive h.1 hmove hmoved⟩

/-- As long as nobody asks to stop, the host does not. -/
theorem Foreseen.goes {n : Nat} (h : r.Foreseen m os ms) (hconverses : r.Converses n ms)
    (hnone : Observer.first? m r.ticks os = none) : r.stop = false ∧ r.result? = none := by
  have hhost := h.host
  have hteam := hconverses.team
  cases hstage : r.stage with
  | starting | checking | ticking | pausing | announcing =>
    rw [hstage] at hteam
    exact ⟨hteam.1, by rw [result?, hstage]⟩
  | gathering round =>
    rw [hstage] at hteam
    refine ⟨?_, by rw [result?, hstage]⟩
    cases round <;> exact hteam.1
  | abandoning =>
    rw [hstage] at hhost
    exact hhost.elim
  | dismissing | joining | joiningTask | closing =>
    rw [hstage] at hhost
    obtain ⟨name, hfirst, -⟩ := hhost
    cases hnone.symm.trans hfirst
  | done =>
    rw [hstage] at hhost
    obtain ⟨name, summary, hfirst, -⟩ := hhost
    cases hnone.symm.trans hfirst

theorem Foreseen.result {result : Except HostError RunSummary} (h : r.Foreseen m os ms)
    (hresult : r.result? = some result) : ∃ name summary,
      Observer.first? m r.ticks os = some name ∧ result = .ok summary ∧
      summary.reason = .observer name ∧ summary.ticks = r.ticks ∧
      summary.cycles = (m.afterTicks r.ticks).cycles := by
  have hhost := h.host
  unfold result? at hresult
  split at hresult
  · next hdone =>
    cases hresult
    rw [hdone] at hhost
    exact hhost
  · cases hresult

end Run

end Dcpu16
