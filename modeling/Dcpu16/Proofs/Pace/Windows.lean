import Dcpu16.Pace.Tally
import Mathlib.Algebra.Ring.Nat
import Mathlib.Data.List.Induction
import Mathlib.Data.List.TakeDrop

/-! A tally accounts for every tick.  The ticks are cut into windows of as many ticks as the
interval has; what a tally holds between two ticks is the window that is not full yet, and each full
window gives its summary.  The sum of a window is the only thing that can go wrong. -/

namespace Dcpu16

/-- The nanoseconds of durations taken together. -/
def Duration.sumNanos (ds : List Duration) : Nat := (ds.map nanos).sum

@[simp] theorem Duration.sumNanos_nil : sumNanos [] = 0 := rfl

@[simp] theorem Duration.sumNanos_singleton (d : Duration) : sumNanos [d] = d.nanos := by
  simp [sumNanos]

@[simp] theorem Duration.sumNanos_append (ds es : List Duration) :
    sumNanos (ds ++ es) = sumNanos ds + sumNanos es := by
  simp [sumNanos]

theorem Duration.nanos_ofNanos_le (n : Nat) : (ofNanos n).nanos ≤ n := Nat.min_le_left ..

theorem Duration.add?_eq_none {d e : Duration} : d.add? e = none ↔ limit ≤ d.nanos + e.nanos :=
  ofNanos?_eq_none

theorem Duration.add?_eq_some {d e sum : Duration} :
    d.add? e = some sum ↔ sum.nanos = d.nanos + e.nanos :=
  ofNanos?_eq_some

namespace Tally

open Duration (sumNanos)

variable {n : Nat} {ds : List Duration} {d : Duration} {t t' : Tally}
  {results : List (Option Summary)} {result : Option Summary}

/-- The window of `n` ticks behind `i` such windows, as far as there are ticks. -/
def window (n i : Nat) (ds : List Duration) : List Duration := (ds.drop (i * n)).take n

/-- The sum of each window is a duration. -/
def Fits (n : Nat) (ds : List Duration) : Prop := ∀ i, sumNanos (window n i ds) < Duration.limit

/-- The ticks behind the latest full window. -/
def unsummed (n : Nat) (ds : List Duration) : List Duration := ds.drop (ds.length / n * n)

/-- What the latest of the ticks gives: nothing while its window is not full, and then the number,
the sum and the average of the latest `n` ticks. -/
inductive Reports (n : Nat) (ds : List Duration) : Option Summary → Prop
  | nothing : ¬n ∣ ds.length → Reports n ds none
  | summary {s : Summary} : n ∣ ds.length → s.ticks = n →
      s.total.nanos = sumNanos (ds.drop (ds.length - n)) → s.average.nanos = s.total.nanos / n →
      Reports n ds (some s)

/-- The nanoseconds of all summaries among the results. -/
def reported (results : List (Option Summary)) : Nat :=
  (results.map fun result => result.elim 0 (·.total.nanos)).sum

/-- The state of a tally with interval `n` behind the ticks, and the results of the ticks. -/
structure Follows (n : Nat) (ds : List Duration) (t : Tally) (results : List (Option Summary)) :
    Prop where
  interval : t.interval = n
  count : t.count = ds.length % n
  total : t.total.nanos = sumNanos (unsummed n ds)
  length : results.length = ds.length
  reports : ∀ i result, results[i]? = some result → Reports n (ds.take (i + 1)) result
  sum : reported results + t.total.nanos = sumNanos ds

/-! ### Windows -/

theorem succ_of_mod_lt {k : Nat} (h : k % n + 1 < n) :
    (k + 1) / n = k / n ∧ (k + 1) % n = k % n + 1 := by
  have hk := Nat.mod_add_div k n
  exact (Nat.div_mod_unique (by omega)).mpr ⟨by omega, h⟩

theorem succ_of_mod_eq {k : Nat} (h : k % n + 1 = n) : k + 1 = n * (k / n + 1) := by
  have hk := Nat.mod_add_div k n
  rw [Nat.mul_add]
  omega

theorem length_unsummed (n : Nat) (ds : List Duration) :
    (unsummed n ds).length = ds.length % n := by
  have hk := Nat.mod_add_div ds.length n
  rw [Nat.mul_comm] at hk
  simp only [unsummed, List.length_drop]
  omega

theorem unsummed_append_of_lt (h : ds.length % n + 1 < n) :
    unsummed n (ds ++ [d]) = unsummed n ds ++ [d] := by
  have hle : ds.length / n * n ≤ ds.length := Nat.div_mul_le_self ..
  simp only [unsummed, List.length_append, List.length_singleton, (succ_of_mod_lt h).1,
    List.drop_append_of_le_length hle]

theorem unsummed_append_of_eq (h : ds.length % n + 1 = n) : unsummed n (ds ++ [d]) = [] := by
  have hfull := succ_of_mod_eq h
  have hdiv : (ds.length + 1) / n * n = ds.length + 1 :=
    Nat.div_mul_cancel ⟨_, hfull⟩
  simp [unsummed, hdiv]

theorem drop_append_of_eq (h : ds.length % n + 1 = n) :
    (ds ++ [d]).drop ((ds ++ [d]).length - n) = unsummed n ds ++ [d] := by
  have hle : ds.length / n * n ≤ ds.length := Nat.div_mul_le_self ..
  have hk := Nat.mod_add_div ds.length n
  rw [Nat.mul_comm] at hk
  have hstart : (ds ++ [d]).length - n = ds.length / n * n := by
    simp only [List.length_append, List.length_singleton]
    omega
  rw [hstart, List.drop_append_of_le_length hle, unsummed]

/-- The window that another tick falls into. -/
theorem window_append_latest (hn : 0 < n) :
    window n (ds.length / n) (ds ++ [d]) = unsummed n ds ++ [d] := by
  have hle : ds.length / n * n ≤ ds.length := Nat.div_mul_le_self ..
  have hlength := length_unsummed n ds
  have hmod := Nat.mod_lt ds.length hn
  rw [window, List.drop_append_of_le_length hle, ← unsummed, List.take_of_length_le]
  simp only [List.length_append, List.length_singleton]
  omega

/-- Another tick leaves the other windows as they are. -/
theorem window_append_of_ne {i : Nat} (hn : 0 < n) (hi : i ≠ ds.length / n) :
    window n i (ds ++ [d]) = window n i ds := by
  have hk := Nat.mod_add_div ds.length n
  have hmod := Nat.mod_lt ds.length hn
  rcases Nat.lt_or_gt_of_ne hi with hlt | hgt
  · have hend : n * (i + 1) ≤ n * (ds.length / n) := Nat.mul_le_mul_left n hlt
    rw [Nat.mul_add, Nat.mul_comm n i] at hend
    rw [window, List.drop_append_of_le_length (by omega), List.take_append_of_le_length]
    · rfl
    · rw [List.length_drop]
      omega
  · have hstart : n * (ds.length / n + 1) ≤ n * i := Nat.mul_le_mul_left n hgt
    rw [Nat.mul_add, Nat.mul_comm n i] at hstart
    rw [window, window, List.drop_eq_nil_of_le, List.drop_eq_nil_of_le]
    · omega
    · simp only [List.length_append, List.length_singleton]
      omega

theorem window_latest (hn : 0 < n) : window n (ds.length / n) ds = unsummed n ds := by
  rw [window, ← unsummed, List.take_of_length_le]
  rw [length_unsummed]
  exact Nat.le_of_lt (Nat.mod_lt _ hn)

theorem fits_nil : Fits n [] := by
  intro i
  simp only [window, List.drop_nil, List.take_nil, Duration.sumNanos_nil]
  decide

/-- Another tick can only break the window that it falls into. -/
theorem fits_append_singleton (hn : 0 < n) :
    Fits n (ds ++ [d]) ↔ Fits n ds ∧ sumNanos (unsummed n ds ++ [d]) < Duration.limit := by
  constructor
  · intro h
    have hlatest := h (ds.length / n)
    rw [window_append_latest hn] at hlatest
    refine ⟨fun i => ?_, hlatest⟩
    by_cases hi : i = ds.length / n
    · rw [Duration.sumNanos_append] at hlatest
      rw [hi, window_latest hn]
      omega
    · rw [← window_append_of_ne hn hi (d := d)]
      exact h i
  · rintro ⟨h, hlatest⟩ i
    by_cases hi : i = ds.length / n
    · rwa [hi, window_append_latest hn]
    · rw [window_append_of_ne hn hi]
      exact h i

/-! ### One tick -/

/-- A tally holds at most the tick that it counts beyond what it held. -/
theorem total_le_of_record (h : t.record d = some (t', result)) :
    t'.total.nanos ≤ t.total.nanos + d.nanos := by
  unfold record at h
  split at h
  · cases h
  · next total htotal =>
    have hsum := Duration.add?_eq_some.mp htotal
    dsimp only at h
    split at h
    · cases h
      exact Nat.le_of_eq hsum
    · cases h
      exact Nat.zero_le _

theorem record_eq_none : t.record d = none ↔ Duration.limit ≤ t.total.nanos + d.nanos := by
  rw [← Duration.add?_eq_none]
  unfold record
  split
  · next h => simp [h]
  · next h =>
    dsimp only
    split <;> simp [h]

theorem Follows.interval_pos (h : Follows n ds t results) : 0 < n := h.interval ▸ t.interval_pos

/-- The number of ticks in a window passes through 32 bits unchanged. -/
theorem Follows.narrow (h : Follows n ds t results) :
    (UInt32.ofNat (t.count + 1)).toNat = t.count + 1 := by
  have hmod := Nat.mod_lt ds.length h.interval_pos
  have hle := t.interval_le
  have hcount := h.count
  have hinterval := h.interval
  rw [maxInterval] at hle
  apply UInt32.toNat_ofNat_of_lt'
  rw [UInt32.size]
  omega

/-- What a tally does with a tick, by the place of the tick in its window. -/
theorem Follows.record_eq (h : Follows n ds t results) :
    t.record d = (t.total.add? d).map fun total =>
      if ds.length % n + 1 < n then ({ t with count := t.count + 1, total := total }, none)
      else (t.reset, some { ticks := n, total := total, average := total.part n }) := by
  have hmod := Nat.mod_lt ds.length h.interval_pos
  have hnarrow := h.narrow
  have hcount := h.count
  unfold Tally.record
  cases t.total.add? d with
  | none => rfl
  | some total =>
    simp only [Option.map_some, h.interval, hnarrow]
    by_cases hlt : ds.length % n + 1 < n
    · rw [if_pos (by omega), if_pos hlt]
    · have hfull : t.count + 1 = n := by omega
      rw [if_neg (by omega), if_neg hlt, hfull]

theorem Follows.record_eq_none (h : Follows n ds t results) :
    t.record d = none ↔ Duration.limit ≤ sumNanos (unsummed n ds ++ [d]) := by
  rw [Tally.record_eq_none, h.total, Duration.sumNanos_append, Duration.sumNanos_singleton]

theorem reports_append (hlength : results.length = ds.length)
    (h : ∀ i result, results[i]? = some result → Reports n (ds.take (i + 1)) result)
    (hlast : Reports n (ds ++ [d]) result) (i : Nat) (r : Option Summary)
    (hr : (results ++ [result])[i]? = some r) : Reports n ((ds ++ [d]).take (i + 1)) r := by
  rcases Nat.lt_trichotomy i ds.length with hlt | heq | hgt
  · rw [List.getElem?_append_left (by omega)] at hr
    rw [List.take_append_of_le_length (by omega)]
    exact h i r hr
  · rw [List.getElem?_append_right (by omega), heq, hlength] at hr
    simp only [Nat.sub_self, List.getElem?_cons_zero, Option.some.injEq] at hr
    rw [List.take_of_length_le (by simp [heq]), ← hr]
    exact hlast
  · rw [List.getElem?_eq_none (by simp; omega)] at hr
    cases hr

@[simp] theorem reported_append_singleton :
    reported (results ++ [result]) = reported results + result.elim 0 (·.total.nanos) := by
  simp [reported]

theorem Follows.record (h : Follows n ds t results) (hr : t.record d = some (t', result)) :
    Follows n (ds ++ [d]) t' (results ++ [result]) := by
  have hmod := Nat.mod_lt ds.length h.interval_pos
  have hlength : (results ++ [result]).length = (ds ++ [d]).length := by simp [h.length]
  have hsum := h.sum
  rw [h.record_eq] at hr
  obtain ⟨total, hadd, hr⟩ := Option.map_eq_some_iff.mp hr
  have hnanos : total.nanos = t.total.nanos + d.nanos := Duration.add?_eq_some.mp hadd
  have htotal : total.nanos = sumNanos (unsummed n ds ++ [d]) := by
    rw [hnanos, h.total, Duration.sumNanos_append, Duration.sumNanos_singleton]
  split at hr
  next hlt =>
    -- the window goes on
    have ⟨_, hsucc⟩ := succ_of_mod_lt hlt
    obtain ⟨rfl, rfl⟩ := Prod.mk.inj hr
    refine ⟨h.interval, ?_, ?_, hlength, reports_append h.length h.reports ?_, ?_⟩
    · simp [h.count, hsucc]
    · rw [unsummed_append_of_lt hlt, htotal]
    · refine .nothing fun hdvd => ?_
      have := Nat.mod_eq_zero_of_dvd hdvd
      simp [hsucc] at this
    · simp only [reported_append_singleton, Option.elim_none, Duration.sumNanos_append,
        Duration.sumNanos_singleton]
      omega
  next hge =>
    -- the window is full
    have hfull : ds.length % n + 1 = n := by omega
    have hdvd : n ∣ (ds ++ [d]).length := by
      rw [List.length_append]
      exact ⟨_, succ_of_mod_eq hfull⟩
    obtain ⟨rfl, rfl⟩ := Prod.mk.inj hr
    refine ⟨h.interval, ?_, ?_, hlength, reports_append h.length h.reports ?_, ?_⟩
    · exact (Nat.mod_eq_zero_of_dvd hdvd).symm
    · rw [unsummed_append_of_eq hfull]
      rfl
    · refine .summary hdvd rfl ?_ rfl
      rw [drop_append_of_eq hfull, htotal]
    · simp only [reported_append_singleton, Option.elim_some, Duration.sumNanos_append,
        Duration.sumNanos_singleton, reset, Duration.zero]
      omega

/-! ### A run of ticks -/

theorem recordAll_nil (t : Tally) : t.recordAll [] = .ok (t, []) := rfl

theorem recordAll_append_singleton (t : Tally) (ds : List Duration) (d : Duration) :
    t.recordAll (ds ++ [d]) =
      t.recordAll ds >>= fun (t, results) =>
        match t.record d with
        | some (t, result) => .ok (t, results ++ [result])
        | none => .error .overflow := by
  rw [recordAll, recordAll, List.foldlM_append]
  cases ds.foldlM recordBehind (t, []) with
  | error e => rfl
  | ok s =>
    obtain ⟨t, done⟩ := s
    cases hr : t.record d with
    | none => simp [recordBehind, hr, Except.map, bind, Except.bind]
    | some s => simp [recordBehind, hr, Except.map, bind, Except.bind, pure, Except.pure]

theorem follows_ofInterval : Follows (min (max n 1) maxInterval) [] (ofInterval n) [] where
  interval := rfl
  count := by simp [ofInterval]
  total := by simp [ofInterval, unsummed, Duration.zero]
  length := rfl
  reports := by simp
  sum := rfl

/-- A run either follows the ticks, whose windows then all fit, or ends with an overflow. -/
theorem recordAll_follows (h : Follows n [] t []) (ds : List Duration) :
    (Fits n ds ∧ ∃ t' results, t.recordAll ds = .ok (t', results) ∧ Follows n ds t' results) ∨
      (¬Fits n ds ∧ t.recordAll ds = .error .overflow) := by
  have hn := h.interval_pos
  induction ds using List.reverseRecOn with
  | nil => exact .inl ⟨fits_nil, t, [], recordAll_nil t, h⟩
  | append_singleton ds d ih =>
    rw [fits_append_singleton hn, recordAll_append_singleton]
    rcases ih with ⟨hfits, t', results, hrun, hfollows⟩ | ⟨hfits, hrun⟩
    · rw [hrun]
      cases hr : t'.record d with
      | none =>
        have hlimit := hfollows.record_eq_none.mp hr
        exact .inr ⟨fun h => absurd h.2 (by omega), by simp [bind, Except.bind, hr]⟩
      | some s =>
        have hlimit := mt hfollows.record_eq_none.mpr (by simp [hr] : t'.record d ≠ none)
        refine .inl ⟨⟨hfits, by omega⟩, s.1, results ++ [s.2], ?_, hfollows.record hr⟩
        simp [bind, Except.bind, hr]
    · exact .inr ⟨fun h => hfits h.1, by rw [hrun]; rfl⟩

/-- A tally with any interval, brought into its range, accounts for every tick as long as the sum of
no window is too long for a duration: the ticks it sums up and those it holds are all ticks, and the
result of each is what its window says.  The tick that makes a sum too long is the first to fail. -/
theorem recordAll_accounts (n : Nat) (ds : List Duration) :
    let N := min (max n 1) 0xFFFFFFFF
    (Fits N ds → ∃ t results, (ofInterval n).recordAll ds = .ok (t, results) ∧
      Follows N ds t results ∧ (UInt32.ofNat (t.count + 1)).toNat = t.count + 1 ∧
      ∀ d, t.record d = none ↔ ¬Fits N (ds ++ [d])) ∧
    (¬Fits N ds → (ofInterval n).recordAll ds = .error .overflow) ∧
    Duration.AddError.overflow.message = "overflow when adding durations" := by
  intro N
  have hstart : Follows N [] (ofInterval n) [] := follows_ofInterval
  rcases recordAll_follows hstart ds with ⟨hfits, t, results, hrun, h⟩ | ⟨hfits, hrun⟩
  · refine ⟨fun _ => ⟨t, results, hrun, h, h.narrow, fun d => ?_⟩, absurd hfits, rfl⟩
    rw [fits_append_singleton hstart.interval_pos, h.record_eq_none]
    simp [hfits]
  · exact ⟨fun h => absurd h hfits, fun _ => hrun, rfl⟩

/-- The longest duration fits the second window of two ticks alone, but not with another nanosecond;
the first window has its summary. -/
theorem recordAll_longest :
    let ds : List Duration := [.ofNanos 3, .ofNanos 4, .ofNanos Duration.limit]
    (Fits 2 ds ∧ ∃ t results s, (ofInterval 2).recordAll ds = .ok (t, results) ∧
      Follows 2 ds t results ∧ results[1]? = some (some s) ∧
      s.ticks = 2 ∧ s.total.nanos = 7 ∧ s.average.nanos = 3) ∧
    ¬Fits 2 (ds ++ [.ofNanos 1]) ∧
      (ofInterval 2).recordAll (ds ++ [.ofNanos 1]) = .error .overflow := by
  intro ds
  have hpush {ds : List Duration} {d : Duration} (h : Fits 2 ds)
      (hd : sumNanos (unsummed 2 ds ++ [d]) < Duration.limit) : Fits 2 (ds ++ [d]) :=
    (fits_append_singleton (by decide)).mpr ⟨h, hd⟩
  have hfits : Fits 2 ds := by
    have hfirst : Fits 2 [.ofNanos 3] := hpush fits_nil (by decide)
    have hfull : Fits 2 [.ofNanos 3, .ofNanos 4] := hpush hfirst (by decide)
    exact hpush hfull (by decide)
  have hlonger : ¬Fits 2 (ds ++ [.ofNanos 1]) := fun h => absurd (h 1) (by decide)
  obtain ⟨t, results, hrun, h, -⟩ := (recordAll_accounts 2 ds).1 hfits
  refine ⟨⟨hfits, t, results, ?_⟩, hlonger, (recordAll_accounts 2 _).2.1 hlonger⟩
  obtain ⟨result, hresult⟩ : ∃ result, results[1]? = some result :=
    ⟨_, List.getElem?_eq_getElem (h.length ▸ by decide)⟩
  cases h.reports 1 result hresult with
  | nothing hpart => exact absurd (by decide) hpart
  | @summary s _ hticks htotal haverage =>
    have hseven : s.total.nanos = 7 := htotal
    exact ⟨s, hrun, h, hresult, hticks, hseven, by rw [haverage, hseven]; rfl⟩

end Tally

end Dcpu16
