import Dcpu16.Proofs.Host.Trace
import Dcpu16.Proofs.Machine.ClosedForm

/-! What a move can do, said once: every move that can happen is one of those listed here, with the
marks that it leaves and the run after it. -/

namespace Dcpu16

/-! ### Rounds -/

namespace Round

/-- The stage of a thread before the callback of a round. -/
def before : Round → Stage
  | start => .starting
  | tick => .ticked

/-- The stage of a thread in the callback of a round. -/
def during : Round → Stage
  | start => .inStart
  | tick => .inTick

def callback (i : Nat) : Round → Section
  | start => .onStart i
  | tick => .onTick i

@[simp] theorem before_inj {a b : Round} : a.before = b.before ↔ a = b := by
  cases a <;> cases b <;> simp [before]

@[simp] theorem during_inj {a b : Round} : a.during = b.during ↔ a = b := by
  cases a <;> cases b <;> simp [during]

@[simp] theorem before_ne_during (a b : Round) : a.before ≠ b.during := by
  cases a <;> cases b <;> simp [before, during]

@[simp] theorem before_ne_waiting (a : Round) : a.before ≠ .waiting := by cases a <;> simp [before]

@[simp] theorem during_ne_waiting (a : Round) : a.during ≠ .waiting := by cases a <;> simp [during]

@[simp] theorem before_ne_answering (a : Round) (reply : Reply) : a.before ≠ .answering reply := by
  cases a <;> simp [before]

@[simp] theorem during_ne_answering (a : Round) (reply : Reply) : a.during ≠ .answering reply := by
  cases a <;> simp [during]

def run {σ : Type} [Observer σ] : Round → σ → Machine → Callback σ
  | start => Observer.onStart
  | tick => Observer.onTick

end Round

namespace Run

variable {σ : Type} [Observer σ] (r : Run σ)

/-! ### Moves -/

/-- What the thread of observer `i` can do. -/
inductive ObserverMove (i : Nat) (w : Worker σ) : List Mark → Run σ → Prop
  | enter {round : Round} : w.stage = round.before → r.holder = none → r.poisoned = false →
      ObserverMove i w [.takes (round.callback i)]
        { r.modify i fun w => { w with stage := round.during } with holder := some (.observer i) }
  | decline {round : Round} : w.stage = round.before → r.holder = none → r.poisoned = true →
      ObserverMove i w [] (r.modify i fun w => { w with stage := .answering .shutdown })
  | leave {round : Round} {reply : Reply} {log : List Record} : w.stage = round.during →
      (round.run w.observer r.machine).ending = .reply reply →
      ObserverMove i w [.gives (round.callback i)]
        { r.modify i fun w' =>
            { w' with
              observer := (round.run w.observer r.machine).observer
              stage := .answering reply } with
          machine := (round.run w.observer r.machine).machine, holder := none, log }
  | panic {round : Round} {log : List Record} : w.stage = round.during →
      (round.run w.observer r.machine).ending = .panic →
      ObserverMove i w [.gives (round.callback i)]
        { r.modify i fun w' =>
            { w' with
              observer := (round.run w.observer r.machine).observer, stage := .ended true } with
          machine := (round.run w.observer r.machine).machine
          holder := none, poisoned := true, log }
  | answer {reply : Reply} : w.stage = .answering reply →
      ObserverMove i w [.answers i reply]
        (r.modify i fun w => { w with stage := .waiting, outbox := w.outbox ++ [reply] })
  | hear {rest : List Order} : w.stage = .waiting → w.inbox = .tick :: rest →
      ObserverMove i w [] (r.modify i fun w => { w with stage := .ticked, inbox := rest })
  | obey {rest : List Order} : w.stage = .waiting → w.inbox = .stop :: rest →
      ObserverMove i w [] (r.modify i fun w => { w with stage := .leaving, inbox := rest })
  | depart {log : List Record} : w.stage = .leaving →
      ObserverMove i w []
        { r.modify i fun w' =>
            { w' with
              observer := (Observer.onShutdown w.observer).observer
              stage := .ended (Observer.onShutdown w.observer).panics } with log }

/-- What the task of worker `i` can do. -/
inductive TaskMove (i : Nat) (t : Task) : List Mark → Run σ → Prop
  | take : t.stage = .apart → r.holder = none → r.poisoned = false →
      TaskMove i t [.takes (.use i)]
        { r.modifyTask i fun t => { t with stage := .inUse } with holder := some (.task i) }
  | decline : t.stage = .apart → r.holder = none → r.poisoned = true →
      TaskMove i t [] (r.modifyTask i fun t => { t with stage := Course.stage t.work.spoilt })
  | give : t.stage = .inUse →
      TaskMove i t [.gives (.use i)]
        { r.modifyTask i fun t' =>
            { t' with
              stage := Course.stage (t.work.use t.uses r.machine).2, uses := t'.uses + 1 } with
          machine := (t.work.use t.uses r.machine).1
          holder := none
          poisoned := r.poisoned || (t.work.use t.uses r.machine).2 = .panics }
  | retire : t.stage = .apart → r.stop = true →
      TaskMove i t [] (r.modifyTask i fun t => { t with stage := .ended t.work.panics })

/-- What the host can do. -/
inductive HostMove : List Mark → Run σ → Prop
  | launch {o : σ} {rest : List σ} {task : Option Task} {log : List Record} {threads : Nat} :
      r.stage = .starting → r.pending = o :: rest →
      (Observer.background o).map (fun work => { work }) = task →
      HostMove [] { r with
        pending := rest
        workers := r.workers ++ [{ name := Observer.name o, observer := o, task }], log, threads }
  | refuse {o : σ} {rest : List σ} {reason : String} {log : List Record} {n threads : Nat} :
      r.stage = .starting → r.pending = o :: rest → r.refusal n = some reason →
      HostMove [] (Run.halt { r with pending := rest, log, threads }
        (.error (.spawn (Observer.name o) reason)))
  | refuseObserver {o : σ} {rest : List σ} {work : Background} {reason : String}
      {log : List Record} {n threads : Nat} :
      r.stage = .starting → r.pending = o :: rest → Observer.background o = some work →
      r.refusal n = some reason →
      HostMove [] { r with
        pending := rest
        workers := r.workers ++ [{
          name := Observer.name o, observer := o, stage := .refused, task := some { work } }]
        stop := true, stage := .abandoning (.spawn (Observer.name o) reason), log, threads }
  | begin : r.stage = .starting → r.pending = [] →
      HostMove [] { r with stage := .gathering .start 0 none, runStart := r.now }
  | abandon {e : HostError} : r.stage = .abandoning e →
      r.workers.getLast?.all Worker.taskHasEnded = true → HostMove [] (r.halt (.error e))
  | proceed {round : Round} {i : Nat} {first : Option String} {w : Worker σ} {rest : List Reply} :
      r.stage = .gathering round i first → r.workers[i]? = some w → w.outbox = .proceed :: rest →
      HostMove [] { r.modify i fun w => { w with outbox := rest } with
        stage := .gathering round (i + 1) first }
  | shutdown {round : Round} {i : Nat} {first : Option String} {w : Worker σ} {rest : List Reply}
      {log : List Record} :
      r.stage = .gathering round i first → r.workers[i]? = some w → w.outbox = .shutdown :: rest →
      HostMove [] { r.modify i fun w => { w with outbox := rest } with
        stage := .gathering round (i + 1) (some (first.getD w.name)), log }
  | lose {round : Round} {i : Nat} {first : Option String} {w : Worker σ} :
      r.stage = .gathering round i first → r.workers[i]? = some w → w.outbox = [] →
      w.hasEnded = true → HostMove [] (r.halt (.error (.observerLost w.name)))
  | yield {round : Round} {i : Nat} {name : String} :
      r.stage = .gathering round i (some name) → r.workers[i]? = none →
      HostMove [] (r.halt (.ok (.observer name)))
  | ready {i : Nat} : r.stage = .gathering .start i none → r.workers[i]? = none →
      HostMove [] { r with stage := .checking }
  | settle {i : Nat} {stage : HostStage} {tally : Option Tally} {log : List Record} :
      r.stage = .gathering .tick i none → r.workers[i]? = none →
      stage = .checking ∨ (∃ deadline, stage = .pausing deadline) → r.settle.tally = tally →
      HostMove [] { r with stage, tally, log }
  | interrupt : r.stage = .checking → r.requested = true → HostMove [] (r.halt (.ok .signal))
  | go : r.stage = .checking → r.requested = false →
      HostMove [] { r with stage := .ticking, cycleStart := r.now }
  | tick {t : Tick} {machine : Machine} : r.stage = .ticking → r.holder = none →
      r.poisoned = false → r.machine.tick = .ok (t, machine) →
      HostMove [.takes .tick, .gives .tick]
        { r with machine, ticks := r.ticks + 1, stage := .announcing 0 }
  | decline : r.stage = .ticking → r.holder = none → r.poisoned = true →
      HostMove [] (r.halt (.error .poisoned))
  | announce {i : Nat} {w : Worker σ} : r.stage = .announcing i → r.workers[i]? = some w →
      w.hasEnded = false →
      HostMove [] { r.modify i (·.tell .tick) with stage := .announcing (i + 1) }
  | miss {i : Nat} {w : Worker σ} : r.stage = .announcing i → r.workers[i]? = some w →
      w.hasEnded = true → HostMove [] (r.halt (.error (.observerLost w.name)))
  | gather {i : Nat} : r.stage = .announcing i → r.workers[i]? = none →
      HostMove [] { r with stage := .gathering .tick 0 none }
  | resume {deadline : Nat} : r.stage = .pausing deadline →
      HostMove [] { r with stage := .checking }
  | dismiss {i : Nat} {cause : Cause} : r.stage = .dismissing i cause → i < r.workers.length →
      HostMove [] { r.modify i (·.tell .stop) with stage := .dismissing (i + 1) cause }
  | await {i : Nat} {cause : Cause} : r.stage = .dismissing i cause → r.workers.length ≤ i →
      HostMove [] { r with stage := .joining 0 cause }
  | join {i : Nat} {cause : Cause} {w : Worker σ} {log : List Record} :
      r.stage = .joining i cause → r.workers[i]? = some w → w.hasEnded = true →
      HostMove [] { r with stage := .joiningTask i cause, log }
  | joinTask {i : Nat} {cause : Cause} {log : List Record} : r.stage = .joiningTask i cause →
      (r.workers[i]?).all Worker.taskHasEnded = true →
      HostMove [] { r with stage := .joining (i + 1) cause, log }
  | wrap {i : Nat} {cause : Cause} : r.stage = .joining i cause → r.workers[i]? = none →
      HostMove [] { r with stage := .closing cause }
  | close {cause : Cause} {result : Except HostError RunSummary} {log : List Record} :
      r.stage = .closing cause → r.holder = none → (r.close cause).result? = some result →
      HostMove [] { r with stage := .done result, log }

/-! ### Every move is one of these -/

variable {r}

theorem observerMove {i : Nat} (h : r.observerEnabled i = true) :
    ∃ w, r.workers[i]? = some w ∧ r.ObserverMove i w (r.marks (.observer i)) (r.observerAct i) := by
  have hleave (round : Round) (w : Worker σ) (hstage : w.stage = round.during) :
      r.ObserverMove i w [.gives (round.callback i)]
        (r.leave i w.name (round.run w.observer r.machine)) := by
    unfold leave
    cases hend : (round.run w.observer r.machine).ending with
    | reply reply => exact .leave hstage hend
    | panic => exact .panic hstage hend
  unfold observerEnabled at h
  cases hw : r.workers[i]? with
  | none => simp [hw] at h
  | some w =>
    refine ⟨w, rfl, ?_⟩
    have henter (round : Round) (hstage : w.stage = round.before) (hfree : r.holder = none) :
        r.ObserverMove i w (if r.poisoned then [] else [.takes (round.callback i)])
          (r.enter i round.during) := by
      unfold enter
      by_cases hp : r.poisoned = true
      · rw [if_pos hp, if_pos hp]
        exact .decline hstage hfree hp
      · rw [if_neg hp, if_neg hp]
        exact .enter hstage hfree (by simpa using hp)
    simp only [hw, Option.any_some] at h
    unfold marks observerAct
    simp only [hw, Option.map_some]
    cases hstage : w.stage with
    | refused | ended panicked => simp [hstage] at h
    | starting => exact henter .start hstage (by simpa [hstage] using h)
    | inStart => exact hleave .start w hstage
    | answering reply => exact .answer hstage
    | waiting =>
      simp only [obey]
      cases hin : w.inbox with
      | nil => simp [hstage, hin] at h
      | cons order rest =>
        cases order with
        | tick => exact .hear hstage hin
        | stop => exact .obey hstage hin
    | ticked => exact henter .tick hstage (by simpa [hstage] using h)
    | inTick => exact hleave .tick w hstage
    | leaving => exact .depart hstage

omit [Observer σ] in
theorem useMove {i : Nat} (h : r.enabled (.use i) = true) :
    ∃ w t, r.workers[i]? = some w ∧ w.task = some t ∧
      r.TaskMove i t (r.marks (.use i)) (r.useAct i) := by
  simp only [enabled, taskIn, Option.any_eq_true] at h
  obtain ⟨w, hw, t, ht, h⟩ := h
  refine ⟨w, t, hw, ht, ?_⟩
  unfold marks useAct
  simp only [hw, ht, Option.bind_some, Option.map_some]
  cases hstage : t.stage with
  | ended panicked => simp [hstage] at h
  | inUse => exact .give hstage
  | apart =>
    have hfree : r.holder = none := by simpa [hstage] using h
    by_cases hp : r.poisoned = true
    · simp only [if_pos hp]
      exact .decline hstage hfree hp
    · simp only [if_neg hp]
      exact .take hstage hfree (by simpa using hp)

theorem startMove (hstage : r.stage = .starting) : r.HostMove [] r.startNext := by
  unfold startNext
  split
  · next hpending => exact .begin hstage hpending
  · next o rest hpending =>
    unfold launch
    cases hwork : Observer.background o with
    | none =>
      simp only [Option.map_none, takeThread]
      split
      · next hrefusal =>
        obtain ⟨hreason, rfl⟩ := Prod.mk.inj hrefusal
        exact .refuse hstage hpending hreason
      · next hrefusal =>
        obtain ⟨-, rfl⟩ := Prod.mk.inj hrefusal
        exact .launch hstage hpending (by rw [hwork]; rfl)
    | some work =>
      simp only [Option.map_some, takeThread]
      split
      · next hrefusal =>
        obtain ⟨hreason, rfl⟩ := Prod.mk.inj hrefusal
        exact .refuse hstage hpending hreason
      · next hrefusal =>
        obtain ⟨-, rfl⟩ := Prod.mk.inj hrefusal
        split
        · next hrefusal =>
          obtain ⟨hreason, rfl⟩ := Prod.mk.inj hrefusal
          exact .refuseObserver hstage hpending hwork hreason
        · next hrefusal =>
          obtain ⟨-, rfl⟩ := Prod.mk.inj hrefusal
          exact .launch hstage hpending (by rw [hwork]; rfl)

theorem settleMove {i : Nat} (hstage : r.stage = .gathering .tick i none)
    (hw : r.workers[i]? = none) : r.HostMove [] r.settle := by
  have hstages (rest : Duration) :
      (if rest = .zero then .checking else .pausing (r.now + rest.nanos)) = HostStage.checking ∨
        ∃ deadline, (if rest = .zero then .checking else .pausing (r.now + rest.nanos)) =
          HostStage.pausing deadline := by
    split
    · exact .inl rfl
    · exact .inr ⟨_, rfl⟩
  have hnext : r.settle.stage = .checking ∨ ∃ deadline, r.settle.stage = .pausing deadline := by
    unfold settle
    dsimp only
    split <;> exact hstages _
  have hsettle : r.settle =
      { r with stage := r.settle.stage, tally := r.settle.tally, log := r.settle.log } := by
    unfold settle
    dsimp only
    split <;> rfl
  rw [hsettle]
  exact .settle hstage hw hnext rfl

theorem gatherMove {round : Round} {i : Nat} {first : Option String}
    (hstage : r.stage = .gathering round i first)
    (h : (r.workers[i]?).all (fun w => !w.outbox.isEmpty || w.hasEnded) = true) :
    r.HostMove [] (r.gather round i first) := by
  unfold gather
  cases hw : r.workers[i]? with
  | none =>
    cases first with
    | some name => exact .yield hstage hw
    | none =>
      cases round with
      | start => exact .ready hstage hw
      | tick =>
        exact settleMove hstage hw
  | some w =>
    simp only [hw, Option.all_some] at h
    simp only
    cases hout : w.outbox with
    | nil => exact .lose hstage hw hout (by simpa [hout] using h)
    | cons reply rest =>
      cases reply with
      | proceed => exact .proceed hstage hw hout
      | shutdown => exact .shutdown hstage hw hout

theorem hostMove (h : r.hostEnabled = true) : r.HostMove (r.marks .host) r.hostAct := by
  unfold hostEnabled at h
  unfold marks hostAct
  cases hstage : r.stage with
  | starting => exact startMove hstage
  | abandoning e => exact .abandon hstage (by simpa [hstage] using h)
  | gathering round i first => exact gatherMove hstage (by simpa [hstage] using h)
  | checking =>
    simp only [check]
    by_cases hreq : r.requested = true
    · rw [if_pos hreq]
      exact .interrupt hstage hreq
    · rw [if_neg hreq]
      exact .go hstage (by simpa using hreq)
  | ticking =>
    have hfree : r.holder = none := by simpa [hstage] using h
    simp only [tickMachine]
    by_cases hp : r.poisoned = true
    · rw [if_pos hp, if_pos hp]
      exact .decline hstage hfree hp
    · rw [if_neg hp, if_neg hp]
      obtain ⟨i, hi⟩ := Instruction.exists_decode (r.machine.memory.read r.machine.registers.pc)
      have htick := Machine.tick_eq hi
      rw [htick]
      exact .tick hstage hfree (by simpa using hp) htick
  | announcing i =>
    simp only [announce]
    cases hw : r.workers[i]? with
    | none => exact .gather hstage hw
    | some w =>
      by_cases hended : w.hasEnded = true
      · simp only [if_pos hended]
        exact .miss hstage hw hended
      · simp only [if_neg hended]
        exact .announce hstage hw (by simpa using hended)
  | pausing deadline => exact .resume hstage
  | dismissing i cause =>
    simp only [dismiss]
    by_cases hlt : i < r.workers.length
    · rw [if_pos hlt]
      exact .dismiss hstage hlt
    · rw [if_neg hlt]
      exact .await hstage (Nat.le_of_not_lt hlt)
  | joining i cause =>
    simp only [join]
    cases hw : r.workers[i]? with
    | none => exact .wrap hstage hw
    | some w =>
      have hended : w.hasEnded = true := by simpa [hstage, hw] using h
      by_cases hpanic : w.stage = .ended true
      · simp only [if_pos hpanic]
        exact .join hstage hw hended
      · simp only [if_neg hpanic]
        exact .join hstage hw hended
  | joiningTask i cause =>
    simp only [joinTask]
    have hended : (r.workers[i]?).all Worker.taskHasEnded = true := by simpa [hstage] using h
    cases hw : r.workers[i]? with
    | none => exact .joinTask hstage hended
    | some w =>
      simp only
      split
      · exact .joinTask hstage hended
      · exact .joinTask hstage hended
  | closing cause =>
    have hfree : r.holder = none := by simpa [hstage] using h
    simp only [close]
    cases cause with
    | error e => exact .close hstage hfree rfl
    | ok reason =>
      simp only
      split
      · next hp => exact .close hstage hfree (by simp [close, hp, result?])
      · next hp => exact .close hstage hfree (by simp [close, hp, result?, report])
  | done result => simp [hstage] at h

/-- What a move leads to, by who makes it. -/
inductive Moved (r : Run σ) : Move → List Mark → Run σ → Prop
  | host {ms : List Mark} {r' : Run σ} : r.HostMove ms r' → Moved r .host ms r'
  | observer {i : Nat} {w : Worker σ} {ms : List Mark} {r' : Run σ} : r.workers[i]? = some w →
      r.ObserverMove i w ms r' → Moved r (.observer i) ms r'
  | use {i : Nat} {w : Worker σ} {t : Task} {ms : List Mark} {r' : Run σ} :
      r.workers[i]? = some w → w.task = some t → r.TaskMove i t ms r' → Moved r (.use i) ms r'
  | retire {i : Nat} {w : Worker σ} {t : Task} : r.workers[i]? = some w → w.task = some t →
      t.stage = .apart → r.stop = true →
      Moved r (.retire i) [] (r.modifyTask i fun t => { t with stage := .ended t.work.panics })
  | elapse {deadline : Nat} : r.stage = .pausing deadline → r.requested = false →
      r.now < deadline → Moved r .elapse [] (r.advanceTo deadline)
  | request : Moved r .request [] { r with requested := true }

theorem moved_of_step {move : Move} {r' : Run σ} (h : r.step move = some r') :
    r.Moved move (r.marks move) r' := by
  unfold step at h
  split at h
  · next henabled =>
    obtain rfl := Option.some.inj h
    cases move with
    | host => exact .host (hostMove henabled)
    | observer i =>
      obtain ⟨w, hw, hmove⟩ := observerMove henabled
      exact .observer hw hmove
    | use i =>
      obtain ⟨w, t, hw, ht, hmove⟩ := useMove henabled
      exact .use hw ht hmove
    | retire i =>
      simp only [enabled, taskIn, Bool.and_eq_true, Option.any_eq_true,
        decide_eq_true_eq] at henabled
      obtain ⟨hstop, w, hw, t, ht, hstage⟩ := henabled
      exact .retire hw ht hstage hstop
    | elapse =>
      simp only [enabled] at henabled
      split at henabled
      · next deadline hstage =>
        obtain ⟨hquiet, hearly⟩ : r.requested = false ∧ r.now < deadline := by
          simpa using henabled
        simp only [act, hstage]
        exact .elapse hstage hquiet hearly
      · cases henabled
    | request => exact .request
  · cases h

/-- What can happen in a run: a move of one of its parties, or something outside. -/
inductive Happens (r : Run σ) : List Mark → Run σ → Prop
  | host {ms : List Mark} {r' : Run σ} : r.HostMove ms r' → Happens r ms r'
  | observer {i : Nat} {w : Worker σ} {ms : List Mark} {r' : Run σ} : r.workers[i]? = some w →
      r.ObserverMove i w ms r' → Happens r ms r'
  | task {i : Nat} {w : Worker σ} {t : Task} {ms : List Mark} {r' : Run σ} :
      r.workers[i]? = some w → w.task = some t → r.TaskMove i t ms r' → Happens r ms r'
  | outside {now : Nat} {requested : Bool} : Happens r [] { r with now, requested }

theorem Moved.happens {move : Move} {new : List Mark} {r' : Run σ} (h : r.Moved move new r') :
    r.Happens new r' := by
  cases h with
  | host hmove => exact .host hmove
  | observer hw hmove => exact .observer hw hmove
  | use hw ht hmove => exact .task hw ht hmove
  | retire hw ht hstage hstop => exact .task hw ht (.retire hstage hstop)
  | elapse | request => exact .outside

theorem happens_of_step {move : Move} {r' : Run σ} (h : r.step move = some r') :
    r.Happens (r.marks move) r' :=
  (moved_of_step h).happens

theorem follow_cons {now : Nat} {move : Move} {moves : List (Nat × Move)} {ms : List Mark}
    {r' : Run σ} : r.follow ((now, move) :: moves) = some (ms, r') ↔
      ∃ next rest, (r.advanceTo now).step move = some next ∧ next.follow moves = some (rest, r') ∧
        ms = (r.advanceTo now).marks move ++ rest := by
  simp only [follow, Option.bind_eq_bind, Option.bind_eq_some_iff]
  constructor
  · rintro ⟨next, hnext, ⟨rest, _⟩, hrest, hend⟩
    obtain ⟨rfl, rfl⟩ := Prod.mk.inj (Option.some.inj hend)
    exact ⟨next, rest, hnext, hrest, rfl⟩
  · rintro ⟨next, rest, hnext, hrest, rfl⟩
    exact ⟨next, hnext, (rest, r'), hrest, rfl⟩

theorem follow_append {moves later : List (Nat × Move)} {ms new : List Mark} {r' r'' : Run σ}
    (hfollow : r.follow moves = some (ms, r')) (hlater : r'.follow later = some (new, r'')) :
    r.follow (moves ++ later) = some (ms ++ new, r'') := by
  induction moves generalizing r ms with
  | nil =>
    obtain ⟨rfl, rfl⟩ := Prod.mk.inj (Option.some.inj hfollow)
    exact hlater
  | cons move moves ih =>
    obtain ⟨next, rest, hnext, hrest, rfl⟩ := follow_cons.mp hfollow
    rw [List.append_assoc]
    exact follow_cons.mpr ⟨next, rest ++ new, hnext, ih hrest, rfl⟩

/-- What moves that `A` allows preserve, and the passing of time too, is true of all that a run is
followed to by such moves. -/
theorem follow_induction_of_moves {P : List Mark → Run σ → Prop} {A : Move → Prop}
    (hnow : ∀ ms r now, P ms r → P ms (r.advanceTo now))
    (hmoved : ∀ ms r move new r', P ms r → A move → r.Moved move new r' → P (ms ++ new) r')
    {moves : List (Nat × Move)} {ms new : List Mark} {r' : Run σ} (h : P ms r)
    (hallowed : ∀ p ∈ moves, A p.2) (hfollow : r.follow moves = some (new, r')) :
    P (ms ++ new) r' := by
  induction moves generalizing r ms new with
  | nil =>
    obtain ⟨rfl, rfl⟩ := Prod.mk.inj (Option.some.inj hfollow)
    rwa [List.append_nil]
  | cons move moves ih =>
    obtain ⟨next, rest, hnext, hrest, rfl⟩ := follow_cons.mp hfollow
    rw [← List.append_assoc]
    exact ih
      (hmoved _ _ _ _ _ (hnow _ _ _ h) (hallowed move List.mem_cons_self) (moved_of_step hnext))
      (fun p hp => hallowed p (List.mem_cons_of_mem _ hp)) hrest

/-- What every happening preserves is true of all that a run is followed to. -/
theorem follow_induction {P : List Mark → Run σ → Prop}
    (hstep : ∀ ms r new r', P ms r → r.Happens new r' → P (ms ++ new) r')
    {moves : List (Nat × Move)} {ms new : List Mark} {r' : Run σ} (h : P ms r)
    (hfollow : r.follow moves = some (new, r')) : P (ms ++ new) r' := by
  refine follow_induction_of_moves (A := fun _ => True) (fun ms r now h => ?_)
    (fun ms r _ new r' h _ hmoved => hstep ms r new r' h hmoved.happens) h (fun _ _ => trivial)
    hfollow
  have hnow := hstep ms r [] (r.advanceTo now) h .outside
  rwa [List.append_nil] at hnow

end Run

end Dcpu16
