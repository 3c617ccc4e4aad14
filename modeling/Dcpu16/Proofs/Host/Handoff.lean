import Dcpu16.Host.Builtin
import Dcpu16.Proofs.Host.Accounts
import Dcpu16.Proofs.Host.Joining
import Dcpu16.Proofs.Host.Stopping

/-! The handoff of the machine is safe.  In every run every observer sees its script: one callback
before the first tick, and one after every tick before the next.  No tick follows an answer that
asks to stop, and the machine is what its uses make of it in the order in which it was taken. -/

namespace Dcpu16

variable {σ : Type}

/-! ### Scripts -/

theorem count_script (i n : Nat) : (script i n).count (.takes .tick) = n := by
  induction n with
  | zero => rfl
  | succ n ih => simp [script, Section.marks, ih]

/-- Before any tick of a script the script of the ticks before is over. -/
theorem eq_script_of_prefix {i n : Nat} {before after : List Mark}
    (h : before ++ .takes .tick :: after <+: script i n) :
    before = script i (before.count (.takes .tick)) := by
  have hwhole (n : Nat) : script i n = script i ((script i n).count (.takes .tick)) := by
    rw [count_script]
  induction n generalizing after with
  | zero =>
    have hmem : Mark.takes .tick ∈ script i 0 := h.subset (by simp)
    simp [script, Section.marks] at hmem
  | succ n ih =>
    obtain ⟨rest, h⟩ := h
    rw [script, List.append_assoc, List.append_assoc, List.append_eq_append_iff] at h
    -- The tick is one of the first `n`, or the last one, or would lie among the marks after it.
    rcases h with ⟨xs, hscript, hxs⟩ | ⟨xs, rfl, hxs⟩
    · cases xs with
      | nil =>
        rw [List.append_nil] at hscript
        rw [← hscript]
        exact hwhole n
      | cons x xs =>
        obtain rfl : .takes .tick = x := (List.cons.inj hxs).1
        have hbefore : before ++ [.takes .tick] <+: script i n := ⟨xs, by simp [hscript]⟩
        exact ih hbefore
    · cases xs with
      | nil =>
        rw [List.append_nil]
        exact hwhole n
      | cons x xs =>
        have hrest : [.gives .tick, .takes (.onTick i), .gives (.onTick i)] =
            xs ++ (.takes .tick :: after ++ rest) := (List.cons.inj hxs).2
        have hmem : .takes .tick ∈ xs ++ (.takes .tick :: after ++ rest) := by simp
        rw [← hrest] at hmem
        simp at hmem

/-- The most that an observer can have seen in its standing. -/
def Standing.bound (i n : Nat) : Standing → List Mark
  | idle seen => seen
  | owes round => prior i n round ++ (round.callback i).marks
  | dismissed => script i n

theorem Worker.Meets.isPrefix {w : Worker σ} {i n : Nat} {seen : List Mark} {s : Standing}
    (h : w.Meets i n seen s) : seen <+: s.bound i n := by
  cases s with
  | idle => exact h.2 ▸ List.prefix_rfl
  | owes round =>
    cases h with
    | ordered _ _ _ hv | before _ _ _ hv => exact ⟨_, by rw [hv]; rfl⟩
    | during _ _ _ hv => exact ⟨[.gives (round.callback i)], by rw [hv, List.append_assoc]; rfl⟩
    | answering _ _ _ hv | answered _ _ _ hv => exact hv ▸ List.prefix_rfl
  | dismissed =>
    obtain ⟨-, hview⟩ := h
    cases hstage : w.stage with
    | refused | starting =>
      rw [hstage] at hview
      exact hview.2 ▸ List.nil_prefix
    | inStart =>
      rw [hstage] at hview
      rw [hview.1, hview.2]
      exact ⟨[.gives (.onStart i)], rfl⟩
    | ticked | inTick => simp [hstage] at hview
    | answering | waiting | leaving | ended =>
      rw [hstage] at hview
      exact hview ▸ List.prefix_rfl

theorem HostStage.Team.started {ticks started pending n : Nat} {stop : Bool} {stage : HostStage}
    (h : stage.Team ticks started pending n stop) : ticks = 0 ∨ started = n := by
  cases stage with
  | gathering round => cases round <;> simp_all [HostStage.Team]
  | _ => simp_all [HostStage.Team]

theorem HostStage.Team.bound_standing {ticks started pending n : Nat} {stop : Bool}
    {stage : HostStage} (hteam : stage.Team ticks started pending n stop) (i : Nat) :
    (stage.standing i ticks).bound i ticks <+: script i ticks := by
  have hstart (hzero : ticks = 0) :
      prior i ticks .start ++ (Round.start.callback i).marks = script i ticks :=
    prior_append (fun _ => hzero) (by simp)
  have htick (hpos : 0 < ticks) :
      prior i ticks .tick ++ (Round.tick.callback i).marks = script i ticks :=
    prior_append (by simp) fun _ => hpos
  cases stage with
  | starting => exact hstart hteam.2.1 ▸ List.prefix_rfl
  | gathering round j first =>
    simp only [HostStage.standing]
    split
    · exact List.prefix_rfl
    · cases round with
      | start => exact hstart hteam.2.1 ▸ List.prefix_rfl
      | tick => exact htick hteam.2.1 ▸ List.prefix_rfl
  | announcing j =>
    simp only [HostStage.standing]
    split
    · exact htick hteam.2.1 ▸ List.prefix_rfl
    · exact ⟨_, htick hteam.2.1⟩
  | _ => exact List.prefix_rfl

namespace Run

variable {n : Nat} {ms new : List Mark} {r r' : Run σ} {i : Nat} {w : Worker σ}

/-- No observer sees more than its script, or anything in another order. -/
theorem Converses.view_prefix (h : r.Converses n ms) (hi : i < n) :
    view i ms <+: script i r.ticks := by
  cases hw : r.workers[i]? with
  | some w => exact (h.meets i w hw).isPrefix.trans (h.team.bound_standing i)
  | none =>
    have hlen := List.getElem?_eq_none_iff.mp hw
    rcases h.team.started with hzero | hfull
    · rw [h.absent i hlen hzero]
      exact List.nil_prefix
    · omega

/-- Once the host has stopped, every observer has seen every tick. -/
theorem Converses.view_eq (h : r.Converses n ms) (hi : i < n) (hstop : r.stop = true) :
    r.ticks = 0 ∨ view i ms = script i r.ticks := by
  rcases h.team.started with hzero | hfull
  · exact .inl hzero
  · obtain ⟨w, hw⟩ : ∃ w, r.workers[i]? = some w := ⟨_, List.getElem?_eq_getElem (by omega)⟩
    obtain ⟨-, hview⟩ : w.Dismissed i r.ticks (view i ms) := by
      have hm := h.meets i w hw
      have hteam := h.team
      rw [hstop] at hteam
      cases hstage : r.stage with
      | gathering round => cases round <;> simp [hstage, HostStage.Team] at hteam
      | starting | announcing | checking | ticking | pausing =>
        simp [hstage, HostStage.Team] at hteam
      | abandoning | dismissing | joining | joiningTask | closing | done =>
        rw [hstage] at hm
        exact hm
    cases hstage : w.stage with
    | refused | starting | inStart =>
      rw [hstage] at hview
      exact .inl hview.1
    | ticked | inTick => simp [hstage] at hview
    | answering | waiting | leaving | ended =>
      rw [hstage] at hview
      exact .inr hview

/-! ### All of a run -/

theorem Happens.ticks [Observer σ] (hnext : r.Happens new r') :
    r'.ticks = r.ticks + new.count (.takes .tick) := by
  cases hnext with
  | host hmove => cases hmove <;> rfl
  | observer _ hmove =>
    cases hmove with
    | @enter round => cases round <;> rfl
    | _ => rfl
  | task _ _ hmove => cases hmove <;> rfl
  | outside => rfl

/-- What stays true of a run with `n` observers that never panic with the machine, where `l` is the
ledger before any use. -/
structure Orderly [Observer σ] (n : Nat) (l : Ledger σ) (ms : List Mark) (r : Run σ) : Prop where
  sound : r.poisoned = false
  ticks : r.ticks = ms.count (.takes .tick)
  converses : r.Converses n ms
  heeds : r.Heeds ms
  exclusive : r.Exclusive ms
  accounted : r.Accounted (l.replay ms)
  joined : r.Joined

theorem Fresh.orderly [Observer σ] (h : r.Fresh) :
    r.Orderly r.pending.length (.start r.machine r.pending) [] := by
  have hnone (i : Nat) (w : Worker σ) : r.workers[i]? ≠ some w := by simp [h.workers]
  refine ⟨h.sound, h.ticks, ?_, ⟨.nil, nofun⟩, ?_, ?_, fun i w hw => absurd hw (hnone i w)⟩
  · refine ⟨fun i w hw => absurd hw (hnone i w), fun _ _ _ => rfl, ?_⟩
    rw [h.stage]
    exact ⟨h.stop, h.ticks, by simp [h.workers]⟩
  · refine ⟨fun i w _ _ hw => absurd hw (hnone i w), fun p hp => ?_, fun _ => rfl⟩
    cases h.holder.symm.trans hp
  · refine ⟨rfl, fun i w hw => absurd hw (hnone i w), fun k o _ ho => ?_, fun i p hp => ?_⟩
    · simp only [Ledger.replay_nil, Ledger.start, h.workers, List.length_nil, Nat.zero_add,
        List.getElem?_map, ho]
      rfl
    · simp only [Ledger.replay_nil, Ledger.start, List.getElem?_map] at hp
      obtain ⟨o, -, rfl⟩ := Option.map_eq_some_iff.mp hp
      exact ⟨o, rfl⟩

theorem Orderly.happens [Observer σ] {l : Ledger σ} (hcalm : Calm σ) (h : r.Orderly n l ms)
    (hnext : r.Happens new r') : r'.Orderly n l (ms ++ new) := by
  have hsound := h.accounted.sound hcalm hnext h.sound
  refine ⟨hsound, ?_, h.converses.happens hnext h.sound hsound, h.heeds.happens h.converses hnext,
    h.exclusive.happens hnext, ?_, h.joined.happens hnext⟩
  · rw [hnext.ticks, h.ticks, List.count_append]
  · rw [Ledger.replay_append]
    exact h.accounted.happens hnext

/-- What a trace shows of a run in which the machine is handed over safely. -/
structure SafeHandoff [Observer σ] (r₀ : Run σ) (ms : List Mark) (r : Run σ) : Prop where
  ticks : r.ticks = ms.count (.takes .tick)
  /-- At every tick every observer has seen its first callback and one for each tick before, and all
  of these are over. -/
  ready (before after : List Mark) (i : Nat) : ms = before ++ .takes .tick :: after →
    i < r₀.pending.length → view i before = script i (before.count (.takes .tick))
  /-- No observer sees anything else, or in another order. -/
  inOrder (i : Nat) : i < r₀.pending.length → view i ms <+: script i r.ticks
  /-- When the host stops ticking, for whatever reason, no observer has missed a tick. -/
  complete (i : Nat) : i < r₀.pending.length → r.stop = true →
    r.ticks = 0 ∨ view i ms = script i r.ticks
  /-- No tick comes after an answer that asks to stop. -/
  heeded : ms.Pairwise fun a b => a.AsksToStop → b ≠ .takes .tick
  /-- Of the uses of the machine only the latest can be under way. -/
  serial : ∃ s : Option Section, taken ms = given ms ++ s.toList ∧ (s = none ↔ r.holder = none)
  /-- The machine is what the uses made of it, in the order in which they took it. -/
  machine : r.machine = ((Ledger.start r₀.machine r₀.pending).replay ms).machine
  /-- When the host is done, no use of the machine is under way. -/
  finished : r.result?.isSome = true → r.stop = true ∧ taken ms = given ms

/-- Whatever moves happen at whatever times, the machine is handed over safely. -/
theorem safeHandoff_of_follow [Observer σ] {r₀ : Run σ} {moves : List (Nat × Move)}
    (hcalm : Calm σ) (hfresh : r₀.Fresh) (hfollow : r₀.follow moves = some (ms, r)) :
    SafeHandoff r₀ ms r := by
  have h : r.Orderly r₀.pending.length (.start r₀.machine r₀.pending) ([] ++ ms) :=
    follow_induction (fun _ _ _ _ h hnext => h.happens hcalm hnext) hfresh.orderly hfollow
  rw [List.nil_append] at h
  refine ⟨h.ticks, fun before after i hms hi => ?_, fun i hi => h.converses.view_prefix hi,
    fun i hi hstop => h.converses.view_eq hi hstop, h.heeds.order, ?_, h.accounted.machine,
    fun hresult => ?_⟩
  · have hview := h.converses.view_prefix hi
    rw [hms, view_append] at hview
    have hcount : (view i before).count (.takes .tick) = before.count (.takes .tick) :=
      List.count_filter rfl
    rw [← hcount]
    exact eq_script_of_prefix hview
  · cases hholder : r.holder with
    | none => exact ⟨none, by simpa using h.exclusive.free hholder, by simp⟩
    | some p =>
      obtain ⟨j, w, s, hw, huses⟩ := h.exclusive.holder p hholder
      exact ⟨some s, (h.exclusive.uses j w p s hw huses).2, by simp⟩
  · obtain ⟨result, hdone⟩ : ∃ result, r.stage = .done result := by
      unfold result? at hresult
      split at hresult
      · next result hdone => exact ⟨result, hdone⟩
      · cases hresult
    have hteam := h.converses.team
    rw [hdone] at hteam
    exact ⟨hteam.1, h.exclusive.free (h.joined.holder_eq_none h.exclusive hdone)⟩

/-- A run of one tick, after which the only observer asks to stop. -/
theorem safeHandoff_of_follow_one_tick :
    ∃ (r₀ : Run Builtin) (moves : List (Nat × Move)) (ms : List Mark) (r : Run Builtin),
      r₀.pending = [.cycleLimit 1] ∧ r₀.follow moves = some (ms, r) ∧ SafeHandoff r₀ ms r ∧
      view 0 ms = script 0 1 ∧ r.result?.isSome = true := by
  have hcalm : Calm Builtin := by
    refine ⟨fun o m => ?_, fun o m => ?_, fun _ _ _ _ => nofun⟩
    · cases o <;> simp [Observer.onStart, Builtin.onStart]
    · cases o with
      | trace => simp [Observer.onTick, Builtin.onTick]
      | loopDetect last =>
        simp only [Observer.onTick, Builtin.onTick]
        split <;> simp
      | cycleLimit limit =>
        simp only [Observer.onTick, Builtin.onTick]
        split <;> simp
  let r₀ : Run Builtin :=
    { machine := { memory := ⟨#[0], by decide, by decide⟩ }, pacer := ⟨.zero⟩
      pending := [.cycleLimit 1] }
  let moves : List Move :=
    .replicate 2 .host ++ .replicate 3 (.observer 0) ++ .replicate 6 .host ++
      .replicate 4 (.observer 0) ++ .replicate 4 .host ++ .replicate 2 (.observer 0) ++
      .replicate 4 .host
  have hend : (r₀.follow (moves.map (0, ·))).map (fun p => (view 0 p.1, p.2.result?.isSome)) =
      some (script 0 1, true) := by
    decide +kernel
  obtain ⟨⟨ms, r⟩, hfollow, hend⟩ := Option.map_eq_some_iff.mp hend
  obtain ⟨hview, hresult⟩ := Prod.mk.inj hend
  exact ⟨r₀, _, ms, r, rfl, hfollow,
    safeHandoff_of_follow hcalm ⟨rfl, rfl, rfl, rfl, rfl, rfl⟩ hfollow, hview, hresult⟩

end Run

end Dcpu16
