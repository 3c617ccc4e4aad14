import Dcpu16.Proofs.Host.Frames

/-! The conversation of the host with its observers.  At every stage of the host an observer either
waits for an order, or owes the host an answer, or is told to stop; with that goes what it has seen
of the run so far, and each move of either side takes one of these standings to the next. -/

namespace Dcpu16

/-! ### What an observer sees -/

/-- What observer `i` has seen before its callback in a round of a run with `n` ticks. -/
def prior (i n : Nat) : Round → List Mark
  | .start => []
  | .tick => script i (n - 1) ++ Section.tick.marks

theorem prior_append {i n : Nat} {round : Round} (hstart : round = .start → n = 0)
    (htick : round = .tick → 0 < n) : prior i n round ++ (round.callback i).marks = script i n := by
  cases round with
  | start =>
    rw [hstart rfl]
    rfl
  | tick =>
    obtain ⟨n, rfl⟩ := Nat.exists_eq_add_of_lt (htick rfl)
    rw [Nat.zero_add]
    rfl

theorem script_append (i n : Nat) : script i n ++ Section.tick.marks = prior i (n + 1) .tick := rfl

@[simp] theorem view_append (i : Nat) (ms ns : List Mark) :
    view i (ms ++ ns) = view i ms ++ view i ns := List.filter_append ..

@[simp] theorem view_nil (i : Nat) : view i [] = [] := rfl

theorem view_tick (i : Nat) : view i [.takes .tick, .gives .tick] = Section.tick.marks := rfl

theorem view_takes (i : Nat) (round : Round) :
    view i [.takes (round.callback i)] = [.takes (round.callback i)] := by
  cases round <;> simp [view, Mark.concerns, Section.concerns, Round.callback]

theorem view_gives (i : Nat) (round : Round) :
    view i [.gives (round.callback i)] = [.gives (round.callback i)] := by
  cases round <;> simp [view, Mark.concerns, Section.concerns, Round.callback]

theorem view_other {i j : Nat} (h : i ≠ j) (round : Round) :
    view j [.takes (round.callback i)] = [] ∧ view j [.gives (round.callback i)] = [] := by
  cases round <;> simp [view, Mark.concerns, Section.concerns, Round.callback, h]

/-! ### Standings -/

/-- Where an observer stands with the host. -/
inductive Standing where
  /-- It waits for an order, and this is what it has seen. -/
  | idle (seen : List Mark)
  /-- The host waits for its answer. -/
  | owes (round : Round)
  /-- It is to stop, or will be told to. -/
  | dismissed

/-- Where the host's stage puts observer `i` after `n` ticks. -/
def HostStage.standing (i n : Nat) : HostStage → Standing
  | starting => .owes .start
  | gathering round j _ => if i < j then .idle (script i n) else .owes round
  | checking | ticking | pausing _ => .idle (script i n)
  | announcing j => if i < j then .owes .tick else .idle (prior i n .tick)
  | abandoning _ | dismissing .. | joining .. | joiningTask .. | closing _ | done _ => .dismissed

namespace Worker

variable {σ : Type}

/-- The thread waits, and nothing is in flight. -/
structure Idle (w : Worker σ) : Prop where
  stage : w.stage = .waiting
  inbox : w.inbox = []
  outbox : w.outbox = []

/-- The worker is on its way to one answer; `seen` is what it had seen before, and `view` what it
has seen now. -/
inductive Owes (w : Worker σ) (i : Nat) (seen view : List Mark) : Round → Prop
  | ordered : w.stage = .waiting → w.inbox = [.tick] → w.outbox = [] → view = seen →
      Owes w i seen view .tick
  | before {round : Round} : w.stage = round.before → w.inbox = [] → w.outbox = [] →
      view = seen → Owes w i seen view round
  | during {round : Round} : w.stage = round.during → w.inbox = [] → w.outbox = [] →
      view = seen ++ [.takes (round.callback i)] → Owes w i seen view round
  | answering {round : Round} {reply : Reply} : w.stage = .answering reply → w.inbox = [] →
      w.outbox = [] → view = seen ++ (round.callback i).marks → Owes w i seen view round
  | answered {round : Round} {reply : Reply} : w.stage = .waiting → w.inbox = [] →
      w.outbox = [reply] → view = seen ++ (round.callback i).marks → Owes w i seen view round

/-- No tick is on its way to the worker, and it has seen all of them. -/
def Dismissed (w : Worker σ) (i n : Nat) (view : List Mark) : Prop :=
  .tick ∉ w.inbox ∧
    match w.stage with
    | .refused | .starting => n = 0 ∧ view = []
    | .inStart => n = 0 ∧ view = [.takes (.onStart i)]
    | .ticked | .inTick => False
    | .answering _ | .waiting | .leaving | .ended _ => view = script i n

/-- The worker is where the standing says, and has seen what goes with it. -/
def Meets (w : Worker σ) (i n : Nat) (view : List Mark) : Standing → Prop
  | .idle seen => w.Idle ∧ view = seen
  | .owes round => w.Owes i (prior i n round) view round
  | .dismissed => w.Dismissed i n view

variable {w : Worker σ} {i n : Nat} {view seen : List Mark} {round : Round} {s : Standing}

theorem Idle.not_hasEnded (h : w.Idle) : w.hasEnded = false := by
  simp [hasEnded, h.stage]

theorem Idle.dismissed (h : w.Idle) : w.Dismissed i n (script i n) := by
  simp [Dismissed, h.inbox, h.stage]

/-- A worker that owes its first answer can be dismissed before the first tick. -/
theorem Owes.dismissed (h : w.Owes i (prior i 0 .start) view .start) : w.Dismissed i 0 view := by
  cases h with
  | before hs hi _ hv => simp [Dismissed, hs, hi, hv, Round.before, prior]
  | during hs hi _ hv => simp [Dismissed, hs, hi, hv, Round.during, Round.callback, prior]
  | answering hs hi _ hv | answered hs hi _ hv =>
    simp [Dismissed, hs, hi, hv, prior, Round.callback, script]

/-! ### Moves of an observer -/

theorem Meets.enter (h : w.Meets i n view s) (hw : w.stage = round.before) :
    Meets { w with stage := round.during } i n (view ++ [.takes (round.callback i)]) s := by
  cases s with
  | idle => exact absurd (hw.symm.trans h.1.stage) (by simp)
  | owes r =>
    cases h with
    | ordered hs | answered hs | during hs | answering hs =>
      exact absurd (hw.symm.trans hs) (by simp)
    | before hs hi ho hv =>
      obtain rfl := Round.before_inj.mp (hs.symm.trans hw)
      exact .during rfl hi ho (by rw [hv])
  | dismissed =>
    cases round <;> simp_all [Meets, Dismissed, Round.before, Round.during, Round.callback]

theorem Meets.leave (h : w.Meets i n view s) (hw : w.stage = round.during) (o : σ) (reply : Reply) :
    Meets { w with observer := o, stage := .answering reply } i n
      (view ++ [.gives (round.callback i)]) s := by
  cases s with
  | idle => exact absurd (hw.symm.trans h.1.stage) (by simp)
  | owes r =>
    cases h with
    | ordered hs | answered hs | answering hs => exact absurd (hw.symm.trans hs) (by simp)
    | before hs => exact absurd (hs.symm.trans hw) (by simp)
    | during hs hi ho hv =>
      obtain rfl := Round.during_inj.mp (hs.symm.trans hw)
      exact .answering rfl hi ho (by simp [hv, Section.marks])
  | dismissed =>
    cases round <;>
      simp_all [Meets, Dismissed, Round.during, Round.callback, script, Section.marks]

theorem Meets.answer {reply : Reply} (h : w.Meets i n view s) (hw : w.stage = .answering reply) :
    Meets { w with stage := .waiting, outbox := w.outbox ++ [reply] } i n view s := by
  cases s with
  | idle => simp [h.1.stage] at hw
  | owes r =>
    cases h with
    | ordered hs | answered hs => simp [hs] at hw
    | before hs | during hs => simp [hs] at hw
    | answering hs hi ho hv => exact .answered rfl hi (congrArg (· ++ [reply]) ho) hv
  | dismissed => simp_all [Meets, Dismissed]

theorem Meets.hear {rest : List Order} (h : w.Meets i n view s) (hin : w.inbox = .tick :: rest) :
    Meets { w with stage := .ticked, inbox := rest } i n view s := by
  cases s with
  | idle => simp [h.1.inbox] at hin
  | owes r =>
    cases h with
    | answered _ hi | answering _ hi | before _ hi | during _ hi => simp [hi] at hin
    | ordered _ hi ho hv =>
      obtain rfl : rest = [] := by simpa [hi, eq_comm] using hin
      exact .before rfl rfl ho hv
  | dismissed => simp [Meets, Dismissed, hin] at h

theorem Meets.obey {rest : List Order} (h : w.Meets i n view s) (hw : w.stage = .waiting)
    (hin : w.inbox = .stop :: rest) :
    Meets { w with stage := .leaving, inbox := rest } i n view s := by
  cases s with
  | idle => simp [h.1.inbox] at hin
  | owes r =>
    cases h with
    | ordered _ hi | answered _ hi | answering _ hi | before _ hi | during _ hi => simp [hi] at hin
  | dismissed => simp_all [Meets, Dismissed]

theorem Meets.depart (h : w.Meets i n view s) (hw : w.stage = .leaving) (o : σ) (panicked : Bool) :
    Meets { w with observer := o, stage := .ended panicked } i n view s := by
  cases s with
  | idle => simp [h.1.stage] at hw
  | owes r =>
    cases h with
    | ordered hs | answered hs | answering hs => simp [hs] at hw
    | before hs | during hs => cases r <;> simp [hs, Round.before, Round.during] at hw
  | dismissed => simp_all [Meets, Dismissed]

theorem Meets.task (h : w.Meets i n view s) (task : Option Task) :
    Meets { w with task } i n view s := by
  cases s with
  | idle => exact ⟨⟨h.1.stage, h.1.inbox, h.1.outbox⟩, h.2⟩
  | owes r =>
    cases h with
    | ordered hs hi ho hv => exact .ordered hs hi ho hv
    | before hs hi ho hv => exact .before hs hi ho hv
    | during hs hi ho hv => exact .during hs hi ho hv
    | answering hs hi ho hv => exact .answering hs hi ho hv
    | answered hs hi ho hv => exact .answered hs hi ho hv
  | dismissed => exact h

/-! ### Moves of the host -/

theorem Idle.tell (h : w.Idle) (hview : view = seen) :
    (w.tell .tick).Owes i seen view .tick := by
  rw [Worker.tell, h.not_hasEnded]
  exact .ordered h.stage (by simp [h.inbox]) h.outbox hview

theorem Owes.read {reply : Reply} {rest : List Reply} (h : w.Owes i seen view round)
    (hout : w.outbox = reply :: rest) :
    Idle { w with outbox := rest } ∧ view = seen ++ (round.callback i).marks := by
  cases h with
  | ordered _ _ ho | before _ _ ho | during _ _ ho | answering _ _ ho => simp [ho] at hout
  | answered hs hi ho hv =>
    obtain ⟨-, rfl⟩ : reply = _ ∧ rest = [] := by simpa [ho, eq_comm] using hout
    exact ⟨⟨hs, hi, rfl⟩, hv⟩

theorem Owes.not_hasEnded (h : w.Owes i seen view round) : w.hasEnded = false := by
  cases h with
  | ordered hs | answered hs | answering hs => simp [hasEnded, hs]
  | before hs => exact not_hasEnded_of_before hs
  | during hs => exact not_hasEnded_of_during hs

theorem Dismissed.tell (h : w.Dismissed i n view) : (w.tell .stop).Dismissed i n view := by
  unfold Worker.tell
  split
  · exact h
  · exact ⟨by simpa using h.1, h.2⟩

end Worker

/-! ### The whole conversation -/

/-- How many observers are started, and whether the host goes on, at its stages. -/
def HostStage.Team (ticks started pending n : Nat) (stop : Bool) : HostStage → Prop
  | starting => stop = false ∧ ticks = 0 ∧ started + pending = n
  | gathering .start _ _ => stop = false ∧ ticks = 0 ∧ started = n
  | gathering .tick _ _ | announcing _ => stop = false ∧ 0 < ticks ∧ started = n
  | checking | ticking | pausing _ => stop = false ∧ started = n
  | abandoning _ | dismissing .. | joining .. | joiningTask .. | closing _ | done _ =>
    stop = true ∧ (ticks = 0 ∨ started = n)

namespace Run

variable {σ : Type}

/-- The conversation with `n` observers is in order: every worker is where the host's stage puts it,
and an observer without a worker has seen nothing. -/
structure Converses (n : Nat) (ms : List Mark) (r : Run σ) : Prop where
  meets (i : Nat) (w : Worker σ) : r.workers[i]? = some w →
    w.Meets i r.ticks (view i ms) (r.stage.standing i r.ticks)
  absent (i : Nat) : r.workers.length ≤ i → r.ticks = 0 → view i ms = []
  team : r.stage.Team r.ticks r.workers.length r.pending.length n r.stop

variable {n : Nat} {ms new : List Mark} {r r' : Run σ} {i : Nat} {w : Worker σ}

/-- A change of worker `i` keeps the conversation in order if the worker still meets the standing
that it had, with what it has seen by then. -/
theorem Converses.modify {f : Worker σ → Worker σ} (h : r.Converses n ms)
    (hw : r.workers[i]? = some w) (hworkers : r'.workers = (r.modify i f).workers)
    (hhost : r'.stage = r.stage ∧ r'.ticks = r.ticks ∧ r'.pending = r.pending ∧ r'.stop = r.stop)
    (hf : ∀ s, w.Meets i r.ticks (view i ms) s →
      (f w).Meets i r.ticks (view i ms ++ view i new) s)
    (hnew : ∀ j, i ≠ j → view j new = []) : r'.Converses n (ms ++ new) := by
  obtain ⟨hstage, hticks, hpending, hstop⟩ := hhost
  have hlt : i < r.workers.length := (List.getElem?_eq_some_iff.mp hw).1
  refine ⟨fun j w' hw' => ?_, fun j hj hn => ?_, ?_⟩
  · rw [hstage, hticks, view_append]
    rcases modified_or_kept hw (hworkers ▸ hw') with ⟨rfl, rfl⟩ | ⟨hij, hw'⟩
    · exact hf _ (h.meets i w hw)
    · rw [hnew j hij, List.append_nil]
      exact h.meets j w' hw'
  · rw [hworkers, length_workers_modify] at hj
    rw [view_append, h.absent j hj (hticks ▸ hn), hnew j (by omega), List.append_nil]
  · rw [hworkers, length_workers_modify, hstage, hticks, hpending, hstop]
    exact h.team

/-- A change of worker `i` that no observer sees. -/
theorem Converses.modify_unseen {f : Worker σ → Worker σ} (h : r.Converses n ms)
    (hw : r.workers[i]? = some w) (hworkers : r'.workers = (r.modify i f).workers)
    (hhost : r'.stage = r.stage ∧ r'.ticks = r.ticks ∧ r'.pending = r.pending ∧ r'.stop = r.stop)
    (hnew : ∀ j, view j new = [])
    (hf : ∀ s, w.Meets i r.ticks (view i ms) s → (f w).Meets i r.ticks (view i ms) s) :
    r'.Converses n (ms ++ new) := by
  refine h.modify hw hworkers hhost (fun s hs => ?_) fun j _ => hnew j
  rw [hnew, List.append_nil]
  exact hf s hs

theorem Converses.observerMove [Observer σ] (h : r.Converses n ms) (hw : r.workers[i]? = some w)
    (hmove : r.ObserverMove i w new r') (hsound : r'.poisoned = false) :
    r'.Converses n (ms ++ new) := by
  cases hmove with
  | @enter round hstage =>
    refine h.modify hw rfl ⟨rfl, rfl, rfl, rfl⟩ (fun s hs => ?_) fun j hij =>
      (view_other hij round).1
    rw [view_takes]
    exact hs.enter hstage
  | decline _ _ hpoisoned => cases hpoisoned.symm.trans hsound
  | @leave round reply _ hstage =>
    refine h.modify hw rfl ⟨rfl, rfl, rfl, rfl⟩ (fun s hs => ?_) fun j hij =>
      (view_other hij round).2
    rw [view_gives]
    exact hs.leave hstage _ reply
  | panic => cases hsound
  | answer hstage =>
    exact h.modify_unseen hw rfl ⟨rfl, rfl, rfl, rfl⟩ (fun _ => rfl) fun s hs => hs.answer hstage
  | hear _ hin =>
    exact h.modify_unseen hw rfl ⟨rfl, rfl, rfl, rfl⟩ (fun _ => rfl) fun s hs => hs.hear hin
  | obey hstage hin =>
    exact h.modify_unseen hw rfl ⟨rfl, rfl, rfl, rfl⟩ (fun _ => rfl) fun s hs =>
      hs.obey hstage hin
  | depart hstage =>
    exact h.modify_unseen hw rfl ⟨rfl, rfl, rfl, rfl⟩ (fun _ => rfl) fun s hs =>
      hs.depart hstage _ _

theorem Converses.taskMove {t : Task} (h : r.Converses n ms) (hw : r.workers[i]? = some w)
    (hmove : r.TaskMove i t new r') : r'.Converses n (ms ++ new) := by
  have hview (j : Nat) : view j new = [] := by
    cases hmove <;> rfl
  cases hmove <;>
    exact h.modify_unseen hw rfl ⟨rfl, rfl, rfl, rfl⟩ hview fun s hs => hs.task _

theorem Converses.pass (h : r.Converses n ms) (hworkers : r'.workers = r.workers)
    (hticks : r'.ticks = r.ticks)
    (hmeets : ∀ (i : Nat) (w : Worker σ), r.workers[i]? = some w →
      w.Meets i r.ticks (view i ms) (r.stage.standing i r.ticks) →
      w.Meets i r.ticks (view i ms) (r'.stage.standing i r.ticks))
    (hteam : r'.stage.Team r.ticks r.workers.length r'.pending.length n r'.stop) :
    r'.Converses n (ms ++ []) := by
  rw [List.append_nil]
  refine ⟨fun i w hw => ?_, ?_, ?_⟩
  · rw [hworkers] at hw
    rw [hticks]
    exact hmeets i w hw (h.meets i w hw)
  · rw [hworkers, hticks]
    exact h.absent
  · rwa [hworkers, hticks]

/-- The host moves on and every worker stays where it is. -/
theorem Converses.stay (h : r.Converses n ms) (hworkers : r'.workers = r.workers)
    (hticks : r'.ticks = r.ticks)
    (hstanding : ∀ i, r'.stage.standing i r.ticks = r.stage.standing i r.ticks)
    (hteam : r'.stage.Team r.ticks r.workers.length r'.pending.length n r'.stop) :
    r'.Converses n (ms ++ []) :=
  h.pass hworkers hticks (fun i _ _ hm => hstanding i ▸ hm) hteam

theorem Converses.enlist {w : Worker σ} (h : r.Converses n ms)
    (hworkers : r'.workers = r.workers ++ [w]) (hzero : r.ticks = 0) (hticks : r'.ticks = 0)
    (hmeets : ∀ (i : Nat) (w : Worker σ), w.Meets i 0 (view i ms) (r.stage.standing i 0) →
      w.Meets i 0 (view i ms) (r'.stage.standing i 0))
    (hnew : ∀ i, w.Meets i 0 [] (r'.stage.standing i 0))
    (hteam : r'.stage.Team 0 (r.workers.length + 1) r'.pending.length n r'.stop) :
    r'.Converses n (ms ++ []) := by
  rw [List.append_nil]
  refine ⟨fun i w' hw' => ?_, fun i hi _ => ?_, ?_⟩
  · rw [hticks]
    rw [hworkers, List.getElem?_append] at hw'
    split at hw'
    · exact hmeets i w' (hzero ▸ h.meets i w' hw')
    · next hi =>
      obtain rfl : w' = w := by simpa using List.mem_of_getElem? hw'
      rw [h.absent i (Nat.le_of_not_lt hi) hzero]
      exact hnew i
  · rw [hworkers, List.length_append] at hi
    exact h.absent i (by omega) hzero
  · rwa [hticks, hworkers, List.length_append]

theorem Converses.talk {j : Nat} {f : Worker σ → Worker σ} (h : r.Converses n ms)
    (hworkers : r'.workers = (r.modify j f).workers) (hticks : r'.ticks = r.ticks)
    (hself : ∀ w, w.Meets j r.ticks (view j ms) (r.stage.standing j r.ticks) →
      r.workers[j]? = some w → (f w).Meets j r.ticks (view j ms) (r'.stage.standing j r.ticks))
    (hothers : ∀ i, j ≠ i → r'.stage.standing i r.ticks = r.stage.standing i r.ticks)
    (hteam : r'.stage.Team r.ticks r.workers.length r'.pending.length n r'.stop) :
    r'.Converses n (ms ++ []) := by
  rw [List.append_nil]
  refine ⟨fun i w' hw' => ?_, ?_, ?_⟩
  · rw [hworkers] at hw'
    rw [hticks]
    obtain ⟨w, hw, rfl⟩ := getElem?_modify_eq_some hw'
    by_cases hij : j = i
    · subst hij
      rw [if_pos rfl]
      exact hself w (h.meets j w hw) hw
    · rw [if_neg hij, hothers i hij]
      exact h.meets i w hw
  · rw [hworkers, hticks, length_workers_modify]
    exact h.absent
  · rwa [hworkers, hticks, length_workers_modify]

theorem Converses.read {j : Nat} {round : Round} {first first' : Option String} {w : Worker σ}
    {reply : Reply} {rest : List Reply} (h : r.Converses n ms)
    (hstage : r.stage = .gathering round j first) (hw : r.workers[j]? = some w)
    (hout : w.outbox = reply :: rest)
    (hworkers : r'.workers = (r.modify j fun w => { w with outbox := rest }).workers)
    (hticks : r'.ticks = r.ticks) (hstage' : r'.stage = .gathering round (j + 1) first')
    (hstop : r'.stop = r.stop) : r'.Converses n (ms ++ []) := by
  have hteam := h.team
  rw [hstage] at hteam
  have hscript : prior j r.ticks round ++ (round.callback j).marks = script j r.ticks := by
    refine prior_append ?_ ?_ <;> rintro rfl <;> exact hteam.2.1
  refine h.talk hworkers hticks (fun w' hm hw' => ?_) (fun i hij => ?_) ?_
  · obtain rfl := Option.some.inj (hw.symm.trans hw')
    simp only [hstage, HostStage.standing, if_neg (Nat.lt_irrefl j)] at hm
    obtain ⟨hidle, hview⟩ := hm.read hout
    simp only [hstage', HostStage.standing, if_pos (Nat.lt_succ_self j)]
    exact ⟨hidle, hview.trans hscript⟩
  · have hlt : i < j + 1 ↔ i < j := by omega
    simp only [hstage, hstage', HostStage.standing, hlt]
  · rw [hstage', hstop]
    cases round <;> exact hteam

theorem Converses.idle_of_gathered {i j : Nat} {round : Round} {first : Option String}
    {w : Worker σ} (h : r.Converses n ms) (hstage : r.stage = .gathering round j first)
    (hj : r.workers[j]? = none) (hw : r.workers[i]? = some w) :
    w.Meets i r.ticks (view i ms) (.idle (script i r.ticks)) := by
  have hlt : i < j :=
    Nat.lt_of_lt_of_le (List.getElem?_eq_some_iff.mp hw).1 (List.getElem?_eq_none_iff.mp hj)
  have hm := h.meets i w hw
  simpa only [hstage, HostStage.standing, if_pos hlt] using hm

theorem Converses.hostMove [Observer σ] (h : r.Converses n ms)
    (hmove : r.HostMove new r') (hsound : r.poisoned = false) : r'.Converses n (ms ++ new) := by
  have hteam := h.team
  cases hmove with
  | launch hstage hpending htask =>
    rw [hstage, hpending] at hteam
    obtain ⟨hstop, hzero, hn⟩ := hteam
    refine h.enlist rfl hzero hzero (fun i w => id) (fun i => ?_) ?_
    · rw [hstage]
      exact .before rfl rfl rfl rfl
    · rw [hstage]
      exact ⟨hstop, rfl, by simpa [Nat.add_right_comm, Nat.add_assoc] using hn⟩
  | refuse hstage hpending =>
    -- No tick has happened, so observers may be dismissed that have not answered yet.
    rw [hstage] at hteam
    refine h.pass rfl rfl (fun i w hw hm => ?_) ⟨rfl, .inl hteam.2.1⟩
    rw [hstage, hteam.2.1] at hm
    rw [hteam.2.1]
    exact hm.dismissed
  | refuseObserver hstage hpending hwork =>
    rw [hstage] at hteam
    obtain ⟨hstop, hzero, hn⟩ := hteam
    refine h.enlist rfl hzero hzero (fun i w hm => ?_) (fun i => ?_) ⟨rfl, .inl rfl⟩
    · rw [hstage] at hm
      exact hm.dismissed
    · exact ⟨List.not_mem_nil, rfl, rfl⟩
  | begin hstage hpending =>
    rw [hstage, hpending] at hteam
    exact h.stay rfl rfl (fun i => by rw [hstage]; rfl) hteam
  | abandon hstage =>
    rw [hstage] at hteam
    exact h.stay rfl rfl (fun i => by rw [hstage]; rfl) ⟨rfl, hteam.2⟩
  | proceed hstage hw hout | shutdown hstage hw hout =>
    exact h.read hstage hw hout rfl rfl rfl rfl
  | lose hstage hw hout hended =>
    -- A thread that owes an answer is not over: only a panic could lose it.
    have hm := h.meets _ _ hw
    simp only [hstage, HostStage.standing, if_neg (Nat.lt_irrefl _)] at hm
    cases hm.not_hasEnded.symm.trans hended
  | @yield round _ _ hstage hj =>
    rw [hstage] at hteam
    refine h.pass rfl rfl (fun i w hw _ => ?_) ⟨rfl, .inr ?_⟩
    · obtain ⟨hidle, hview⟩ := h.idle_of_gathered hstage hj hw
      rw [hview]
      exact hidle.dismissed
    · cases round <;> exact hteam.2.2
  | ready hstage hj =>
    rw [hstage] at hteam
    exact h.pass rfl rfl (fun i w hw _ => h.idle_of_gathered hstage hj hw) ⟨hteam.1, hteam.2.2⟩
  | settle hstage hj hnext =>
    rw [hstage] at hteam
    rcases hnext with rfl | ⟨deadline, rfl⟩
    · exact h.pass rfl rfl (fun i w hw _ => h.idle_of_gathered hstage hj hw) ⟨hteam.1, hteam.2.2⟩
    · exact h.pass rfl rfl (fun i w hw _ => h.idle_of_gathered hstage hj hw) ⟨hteam.1, hteam.2.2⟩
  | interrupt hstage =>
    rw [hstage] at hteam
    refine h.pass rfl rfl (fun i w hw hm => ?_) ⟨rfl, .inr hteam.2⟩
    rw [hstage] at hm
    obtain ⟨hidle, hview⟩ := hm
    rw [hview]
    exact hidle.dismissed
  | tick hstage =>
    rw [hstage] at hteam
    refine ⟨fun i w hw => ?_, nofun, hteam.1, Nat.succ_pos _, hteam.2⟩
    have hm := h.meets i w hw
    rw [hstage] at hm
    obtain ⟨hidle, hview⟩ := hm
    rw [view_append, view_tick, hview]
    exact ⟨hidle, script_append i r.ticks⟩
  | decline hstage _ hpoisoned => cases hpoisoned.symm.trans hsound
  | @announce j _ hstage hw =>
    rw [hstage] at hteam
    refine h.talk rfl rfl (fun w' hm _ => ?_) (fun i hij => ?_) hteam
    · simp only [hstage, HostStage.standing, if_neg (Nat.lt_irrefl j)] at hm
      simp only [HostStage.standing, if_pos (Nat.lt_succ_self j)]
      exact hm.1.tell hm.2
    · have hlt : i < j + 1 ↔ i < j := by omega
      simp only [hstage, HostStage.standing, hlt]
  | miss hstage hw hended =>
    have hm := h.meets _ _ hw
    simp only [hstage, HostStage.standing, if_neg (Nat.lt_irrefl _)] at hm
    cases hm.1.not_hasEnded.symm.trans hended
  | @gather j hstage hj =>
    rw [hstage] at hteam
    refine h.pass rfl rfl (fun i w hw hm => ?_) hteam
    have hlt : i < j :=
      Nat.lt_of_lt_of_le (List.getElem?_eq_some_iff.mp hw).1 (List.getElem?_eq_none_iff.mp hj)
    simp only [hstage, HostStage.standing, if_pos hlt] at hm
    simpa only [HostStage.standing, if_neg (Nat.not_lt_zero i)] using hm
  | dismiss hstage =>
    rw [hstage] at hteam
    refine h.talk rfl rfl (fun w' hm _ => ?_) (fun i _ => by rw [hstage]; rfl) hteam
    rw [hstage] at hm
    exact hm.tell
  | go hstage | resume hstage | await hstage | join hstage | joinTask hstage | wrap hstage
  | close hstage =>
    rw [hstage] at hteam
    exact h.stay rfl rfl (fun i => by rw [hstage]; rfl) hteam

theorem Converses.happens [Observer σ] (h : r.Converses n ms)
    (hnext : r.Happens new r') (hsound : r.poisoned = false) (hsound' : r'.poisoned = false) :
    r'.Converses n (ms ++ new) := by
  cases hnext with
  | host hmove => exact h.hostMove hmove hsound
  | observer hw hmove => exact h.observerMove hw hmove hsound'
  | task hw _ hmove => exact h.taskMove hw hmove
  | outside => exact h.stay rfl rfl (fun _ => rfl) h.team

end Run

end Dcpu16
