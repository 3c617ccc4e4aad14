import Dcpu16.Host.Registry
import Dcpu16.Proofs.Except
import Dcpu16.Proofs.Host.Length
import Dcpu16.Proofs.Host.Passive

/-! The outcome of a run with the observers that come with the emulator.  It does not depend on the
order in which threads move: the run ends in the first round in which an observer asks to stop, with
the machine that so many ticks in a row make. -/

namespace Dcpu16

namespace Builtin

/-! ### What each observer asks for -/

/-- Before the first tick (`n = 0`) or after the `n`-th, the observer asks to stop: a limit of
cycles is reached, or the tick has left the program counter where it was. -/
def AsksAfter (m : Machine) (n : Nat) : Builtin → Prop
  | trace => False
  | loopDetect _ => ∃ k before after, n = k + 1 ∧ Machine.run k m = .ok before ∧
    Machine.run n m = .ok after ∧ after.registers.pc = before.registers.pc
  | cycleLimit limit => limit.toNat ≤ m.cycles.toNat + n

theorem passive : Passive Builtin := by
  refine ⟨fun round o m => ?_, fun round o m => ?_, fun _ => rfl⟩
  · cases round with
    | start => cases o <;> rfl
    | tick =>
      cases o with
      | trace => rfl
      | loopDetect | cycleLimit =>
        simp only [Round.run, Observer.onTick, onTick]
        split <;> rfl
  · cases round with
    | start => cases o <;> simp [Round.run, Observer.onStart, onStart]
    | tick =>
      cases o with
      | trace => simp [Round.run, Observer.onTick, onTick]
      | loopDetect | cycleLimit =>
        simp only [Round.run, Observer.onTick, onTick]
        split <;> simp

variable {m : Machine} {n : Nat} {o : Builtin}

theorem afterRounds_cycleLimit (m : Machine) (limit : UInt64) (n : Nat) :
    Observer.afterRounds m (cycleLimit limit) n = cycleLimit limit := by
  induction n with
  | zero => rfl
  | succ n ih =>
    rw [Observer.afterRounds, ih]
    cases n with
    | zero => rfl
    | succ n =>
      simp only [Round.ofTicks, Round.run, Observer.onTick, onTick]
      split <;> rfl

theorem afterRounds_trace (m : Machine) (n : Nat) : Observer.afterRounds m trace n = trace := by
  induction n with
  | zero => rfl
  | succ n ih =>
    rw [Observer.afterRounds, ih]
    cases n <;> rfl

/-- The detector of loops remembers the program counter of the round before. -/
theorem afterRounds_loopDetect (m : Machine) (n : Nat) :
    Observer.afterRounds m (loopDetect none) (n + 1) =
      loopDetect (some (m.afterTicks n).registers.pc) := by
  induction n with
  | zero => rfl
  | succ n ih =>
    rw [Observer.afterRounds, ih]
    simp only [Round.ofTicks, Round.run, Observer.onTick, onTick]
    split <;> rfl

theorem toNat_cycles_afterTicks (hroom : m.cycles.toNat + n < UInt64.size) :
    (m.afterTicks n).cycles.toNat = m.cycles.toNat + n := by
  simp only [UInt64.size] at hroom
  rw [Machine.cycles_afterTicks, UInt64.toNat_add, UInt64.toNat_ofNat']
  omega

theorem asks_cycleLimit {limit : UInt64} (hroom : m.cycles.toNat + n < UInt64.size) :
    Observer.asks m n (cycleLimit limit) = true ↔ (cycleLimit limit).AsksAfter m n := by
  have hreached : limit ≤ (m.afterTicks n).cycles ↔ limit.toNat ≤ m.cycles.toNat + n := by
    rw [UInt64.le_iff_toNat_le, toNat_cycles_afterTicks hroom]
  rw [Observer.asks, Observer.ending, afterRounds_cycleLimit, AsksAfter, ← hreached]
  cases n with
  | zero =>
    simp only [Round.ofTicks, Round.run, Observer.onStart, onStart]
    split <;> simp_all
  | succ n =>
    simp only [Round.ofTicks, Round.run, Observer.onTick, onTick]
    split <;> simp_all

theorem asks_loopDetect :
    Observer.asks m n (loopDetect none) = true ↔ (loopDetect none).AsksAfter m n := by
  rw [Observer.asks, Observer.ending, AsksAfter]
  cases n with
  | zero => simp [Round.ofTicks, Round.run, Observer.onStart, onStart, Observer.afterRounds]
  | succ n =>
    rw [afterRounds_loopDetect]
    simp only [Round.ofTicks, Round.run, Observer.onTick, onTick, Machine.run_eq_ok]
    split
    · next hpc =>
      simp only [decide_true, true_iff]
      exact ⟨n, _, _, rfl, rfl, rfl, (Option.some.inj hpc).symm⟩
    · next hpc =>
      refine iff_of_false (by simp) ?_
      rintro ⟨k, before, after, hk, hbefore, hafter, heq⟩
      obtain rfl := Nat.succ.inj hk
      obtain rfl := Except.ok.inj hbefore
      obtain rfl := Except.ok.inj hafter
      exact hpc (congrArg some heq.symm)

/-- An observer that has just been made asks to stop when `AsksAfter` says. -/
theorem asks_iff (hnew : ∀ pc, o ≠ loopDetect (some pc))
    (hroom : m.cycles.toNat + n < UInt64.size) :
    Observer.asks m n o = true ↔ o.AsksAfter m n := by
  cases o with
  | trace =>
    rw [Observer.asks, Observer.ending, afterRounds_trace]
    cases n <;> simp [Round.ofTicks, Round.run, Observer.onStart, Observer.onTick, onStart, onTick,
      AsksAfter]
  | loopDetect last =>
    cases last with
    | none => exact asks_loopDetect
    | some pc => exact absurd rfl (hnew pc)
  | cycleLimit limit => exact asks_cycleLimit hroom

end Builtin

/-! ### Observers from the registry -/

namespace Registry

variable {σ : Type}

theorem mem_insert {name : String} {make : Settings → σ} {entries : List (String × (Settings → σ))}
    {entry : String × (Settings → σ)} (h : entry ∈ insert name make entries) :
    entry = (name, make) ∨ entry ∈ entries := by
  induction entries with
  | nil => exact .inl (List.mem_singleton.mp h)
  | cons other rest ih =>
    obtain ⟨other, f⟩ := other
    unfold insert at h
    split at h
    · exact List.mem_cons.mp h
    · split at h
      · exact (List.mem_cons.mp h).imp_right (List.mem_cons_of_mem _)
      · rcases List.mem_cons.mp h with h | h
        · exact .inr (h ▸ List.mem_cons_self)
        · exact (ih h).imp_right (List.mem_cons_of_mem _)

/-- An observer comes from an entry of the registry. -/
theorem exists_of_create {r : Registry σ} {name : String} {s : Settings} {o : σ}
    (h : r.create name s = .ok o) : ∃ make, (name, make) ∈ r.entries ∧ make s = o := by
  unfold create at h
  split at h
  · next make hmake =>
    obtain ⟨before, after, hentries, -⟩ := List.lookup_eq_some_iff.mp hmake
    exact ⟨make, by rw [hentries]; simp, Except.ok.inj h⟩
  · cases h

theorem exists_of_createAll {r : Registry σ} {s : Settings} {os : List σ} {o : σ}
    (hos : r.createAll s = .ok os) (ho : o ∈ os) :
    ∃ name make, (name, make) ∈ r.entries ∧ make s = o := by
  obtain ⟨name, -, hmade⟩ := exists_of_mapM_eq_ok hos ho
  exact ⟨name, exists_of_create hmade⟩

/-- A detector of loops that has just been made remembers nothing. -/
theorem ne_loopDetect_of_createAll {s : Settings} {os : List Builtin} {o : Builtin}
    (hos : builtins.createAll s = .ok os) (ho : o ∈ os) (pc : UInt16) :
    o ≠ .loopDetect (some pc) := by
  obtain ⟨name, make, hentry, rfl⟩ := exists_of_createAll hos ho
  rcases mem_insert hentry with h | h
  · cases h
    simp
  · rcases mem_insert h with h | h
    · cases h
      simp
    · rcases mem_insert h with h | h
      · cases h
        simp
      · cases h

end Registry

/-! ### The outcome -/

namespace Builtin

/-- The observers stop a run from machine `m` in the round after `k` ticks, which is the first round
in which one of them asks to. -/
structure StopAfter (m : Machine) (os : List Builtin) (k : Nat) : Prop where
  asks : ∃ o ∈ os, o.AsksAfter m k
  first (n : Nat) : n < k → ∀ o ∈ os, ¬o.AsksAfter m n
  /-- The machine's count of cycles has room for the ticks. -/
  room : m.cycles.toNat + k < UInt64.size

/-- What comes of a run of observers `os` on machine `m` by some moves. -/
structure Outcome (m : Machine) (os : List Builtin) (moves : List (Nat × Move)) (r : Run Builtin) :
    Prop where
  /-- Until the run is over somebody can move, -/
  goesOn : r.result? = none → ∃ move, move ≠ .request ∧ r.enabled move = true
  /-- and there are only so many moves for each tick, -/
  bounded : moves.length ≤ 13 * os.length + 9 + movesOfTick os.length * r.ticks
  /-- and no ticks beyond the round in which the observers stop it; -/
  ticks (k : Nat) : StopAfter m os k → r.ticks ≤ k
  /-- so whatever the moves were, the run gets to its end from there. -/
  returns (k : Nat) : StopAfter m os k → ∃ later ms r', (∀ p ∈ later, p.2 ≠ .request) ∧
    r.follow later = some (ms, r') ∧ r'.result?.isSome = true
  /-- The end has come after so many ticks, by the first observer in the list that asks then, and
  the machine is that of a run of so many instructions. -/
  result (k : Nat) (result : Except HostError RunSummary) : StopAfter m os k →
    r.result? = some result → ∃ summary before o after, result = .ok summary ∧ summary.ticks = k ∧
      summary.cycles.toNat = m.cycles.toNat + k ∧ summary.reason = .observer o.name ∧
      os = before ++ o :: after ∧ o.AsksAfter m k ∧ (∀ o' ∈ before, ¬o'.AsksAfter m k) ∧
      Machine.run k m = .ok r.machine
  /-- If no observer ever asks to stop, the run does not. -/
  endless : (∀ n, m.cycles.toNat + n < UInt64.size → ∀ o ∈ os, ¬o.AsksAfter m n) →
    m.cycles.toNat + r.ticks < UInt64.size → r.stop = false ∧ r.result? = none

variable {m : Machine} {os : List Builtin} {n k : Nat}

theorem first?_eq_none (hnew : ∀ o ∈ os, ∀ pc, o ≠ loopDetect (some pc))
    (hroom : m.cycles.toNat + n < UInt64.size) :
    Observer.first? m n os = none ↔ ∀ o ∈ os, ¬o.AsksAfter m n := by
  simp only [Observer.first?, Option.map_eq_none_iff, List.find?_eq_none]
  exact forall₂_congr fun o ho => not_congr (asks_iff (hnew o ho) hroom)

theorem exists_of_first?_eq_some {name : String} (hnew : ∀ o ∈ os, ∀ pc, o ≠ loopDetect (some pc))
    (hroom : m.cycles.toNat + n < UInt64.size) (h : Observer.first? m n os = some name) :
    ∃ before o after, os = before ++ o :: after ∧ o.name = name ∧ o.AsksAfter m n ∧
      ∀ o' ∈ before, ¬o'.AsksAfter m n := by
  obtain ⟨o, hfind, rfl⟩ := Option.map_eq_some_iff.mp h
  obtain ⟨hasks, before, after, rfl, hbefore⟩ := List.find?_eq_some_iff_append.mp hfind
  refine ⟨before, o, after, rfl, rfl, ?_, fun o' ho' => ?_⟩
  · exact (asks_iff (hnew o (by simp)) hroom).mp hasks
  · rw [← asks_iff (hnew o' (by simp [ho'])) hroom]
    simpa using hbefore o' ho'

section

variable {s : Settings} {pacer : Pacer} {tally : Option Tally} {moves : List (Nat × Move)}
  {ms : List Mark} {r : Run Builtin}

theorem StopAfter.ticks_le (h : StopAfter m os k) (hos : Registry.builtins.createAll s = .ok os)
    (hforeseen : r.Foreseen m os ms) : r.ticks ≤ k := by
  refine Nat.le_of_not_lt fun hlt => ?_
  obtain ⟨o, ho, hasks⟩ := h.asks
  have hnew (o : Builtin) (ho : o ∈ os) := Registry.ne_loopDetect_of_createAll hos ho
  exact (first?_eq_none hnew h.room).mp (hforeseen.silent k hlt) o ho hasks

/-- The observers of any settings, in any order and with repetitions, stop a run in the same round
for the same reason, whatever the order in which the threads move and answer. -/
theorem outcome_of_follow (hos : Registry.builtins.createAll s = .ok os)
    (hquiet : ∀ p ∈ moves, p.2 ≠ .request)
    (hfollow : Run.follow { machine := m, pacer, tally, pending := os } moves = some (ms, r)) :
    Outcome m os moves r := by
  have hfresh : Run.Fresh (σ := Builtin) { machine := m, pacer, tally, pending := os } :=
    ⟨rfl, rfl, rfl, rfl, rfl, rfl⟩
  have hnew (o : Builtin) (ho : o ∈ os) := Registry.ne_loopDetect_of_createAll hos ho
  have hsteady := Run.steady_of_follow hfresh hfollow
  have hgoes {moves : List (Nat × Move)} {ms : List Mark} {r : Run Builtin}
      (hquiet : ∀ p ∈ moves, p.2 ≠ .request)
      (hfollow : Run.follow { machine := m, pacer, tally, pending := os } moves = some (ms, r)) :=
    Run.foreseen_of_follow passive hfresh rfl (fun _ => rfl) hquiet hfollow
  have hlength {moves : List (Nat × Move)} {ms : List Mark} {r : Run Builtin}
      (hquiet : ∀ p ∈ moves, p.2 ≠ .request)
      (hfollow : Run.follow { machine := m, pacer, tally, pending := os } moves = some (ms, r)) :
      moves.length ≤ 13 * os.length + 9 + movesOfTick os.length * r.ticks := by
    rw [(hgoes hquiet hfollow).1.ticks]
    exact Run.length_le_of_follow passive.background hfresh hquiet hfollow
  obtain ⟨horderly, hforeseen⟩ := hgoes hquiet hfollow
  refine ⟨hsteady.exists_enabled, hlength hquiet hfollow,
    fun k hstop => hstop.ticks_le hos hforeseen, fun k hstop => ?_,
    fun k result hstop hresult => ?_, fun hnone hroom => ?_⟩
  · -- The moves that have been made and those to come are together no more than there can be.
    have hbounded : ∀ later new r', (∀ p ∈ later, p.2 ≠ .request) →
        r.follow later = some (new, r') →
          later.length ≤ 13 * os.length + 9 + movesOfTick os.length * k := by
      intro later new r' hlater hfollow'
      have hquiet' : ∀ p ∈ moves ++ later, p.2 ≠ .request :=
        List.forall_mem_append.mpr ⟨hquiet, hlater⟩
      have hall := Run.follow_append hfollow hfollow'
      have hticks := hstop.ticks_le hos (hgoes hquiet' hall).2
      have hmoves := hlength hquiet' hall
      rw [List.length_append] at hmoves
      have hbound := Nat.mul_le_mul_left (movesOfTick os.length) hticks
      omega
    exact hsteady.exists_end hbounded
  · obtain ⟨name, summary, hfirst, rfl, hreason, hsummary, hcycles⟩ := hforeseen.result hresult
    -- The run is not over before the round in which the observers stop it.
    have hk : r.ticks = k := by
      refine Nat.le_antisymm (hstop.ticks_le hos hforeseen) (Nat.le_of_not_lt fun hlt => ?_)
      have hroom := Nat.lt_trans (Nat.add_lt_add_left hlt _) hstop.room
      have hsilent := (first?_eq_none hnew hroom).mpr (hstop.first _ hlt)
      cases hsilent.symm.trans hfirst
    rw [hk] at hfirst hsummary hcycles
    obtain ⟨before, o, after, hsplit, rfl, hasks, hbefore⟩ :=
      exists_of_first?_eq_some hnew hstop.room hfirst
    refine ⟨summary, before, o, after, rfl, hsummary, ?_, hreason, hsplit, hasks, hbefore, ?_⟩
    · rw [hcycles, toNat_cycles_afterTicks hstop.room]
    · rw [Machine.run_eq_ok, hforeseen.machine, hk]
  · exact hforeseen.goes horderly.converses ((first?_eq_none hnew hroom).mpr (hnone _ hroom))

end

/-- Of two observers that answer in the other order, only the second one asks to stop, after one
tick. -/
theorem outcome_of_follow_one_tick :
    ∃ (s : Settings) (moves : List (Nat × Move)) (ms : List Mark) (r : Run Builtin),
      Registry.builtins.createAll s = .ok [.loopDetect none, .cycleLimit 1] ∧
      (∀ p ∈ moves, p.2 ≠ .request) ∧
      Run.follow {
        machine := { memory := ⟨#[0], by decide, by decide⟩ }, pacer := ⟨.zero⟩
        pending := [.loopDetect none, .cycleLimit 1] } moves = some (ms, r) ∧
      Outcome { memory := ⟨#[0], by decide, by decide⟩ } [.loopDetect none, .cycleLimit 1] moves r ∧
      StopAfter { memory := ⟨#[0], by decide, by decide⟩ } [.loopDetect none, .cycleLimit 1] 1 ∧
      r.result?.isSome = true := by
  let s : Settings := { observers := ["loop-detect", "cycle-limit"], maxCycles := some 1 }
  let m : Machine := { memory := ⟨#[0], by decide, by decide⟩ }
  let os : List Builtin := [.loopDetect none, .cycleLimit 1]
  let schedule : List Move :=
    .replicate 3 .host ++ .replicate 3 (.observer 1) ++ .replicate 3 (.observer 0) ++
      .replicate 8 .host ++ .replicate 4 (.observer 1) ++ .replicate 4 (.observer 0) ++
      .replicate 6 .host ++ .replicate 2 (.observer 1) ++ .replicate 2 (.observer 0) ++
      .replicate 6 .host
  let moves : List (Nat × Move) := schedule.map (0, ·)
  have hos : Registry.builtins.createAll s = .ok os := by rfl
  have hquiet : ∀ p ∈ moves, p.2 ≠ .request := by decide
  have hend : (Run.follow { machine := m, pacer := ⟨.zero⟩, pending := os } moves).map
      (fun p => p.2.result?.isSome) = some true := by
    decide +kernel
  have hstop : StopAfter m os 1 := by
    refine ⟨⟨.cycleLimit 1, by simp [os], Nat.le_refl 1⟩, fun n hn o ho => ?_, by decide⟩
    obtain rfl := Nat.lt_one_iff.mp hn
    rcases List.mem_pair.mp ho with rfl | rfl
    · rintro ⟨k, before, after, hk, -⟩
      cases hk
    · exact Nat.not_succ_le_zero 0
  obtain ⟨⟨ms, r⟩, hfollow, hover⟩ := Option.map_eq_some_iff.mp hend
  exact ⟨s, moves, ms, r, hos, hquiet, hfollow, outcome_of_follow hos hquiet hfollow, hstop, hover⟩

end Builtin

end Dcpu16
