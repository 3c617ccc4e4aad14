import Dcpu16.Proofs.Host.Moves
import Dcpu16.Proofs.Pace.Windows

/-! The time that a run's tally counts.  No two ticks go on at once, so what a tally holds has
passed since the run began, and a host whose clock still shows a duration can always add the tick
that ends. -/

namespace Dcpu16

/-- A tick goes on: its replies are not all gathered. -/
def HostStage.inTick : HostStage → Bool
  | ticking | announcing _ | gathering .tick .. => true
  | _ => false

namespace Run

variable {σ : Type} {r r' : Run σ}

/-- The time up to which the tally can have counted: the start of the tick that goes on, or now. -/
def counted (r : Run σ) : Nat := if r.stage.inTick then r.cycleStart else r.now

theorem counted_of_inTick (h : r.stage.inTick = true) : r.counted = r.cycleStart := if_pos h

/-- The tally holds no more than the time that has passed. -/
structure Timely (r : Run σ) : Prop where
  counted_le : r.counted ≤ r.now
  total_le (t : Tally) : t ∈ r.tally → t.total.nanos ≤ r.counted

theorem timely_of_start {machine : Machine} {frequency : Float} {reportInterval : Nat}
    {observers : List σ} (h : start machine frequency reportInterval observers = .ok r) :
    r.Timely := by
  obtain ⟨hfresh, -, -, htally⟩ := fresh_of_start h
  refine ⟨?_, fun t ht => ?_⟩
  · rw [counted, hfresh.stage]
    exact Nat.le_refl _
  · rw [htally t ht]
    exact Nat.zero_le _

theorem Timely.mono (h : r.Timely) (htally : r'.tally = r.tally) (hcounted : r.counted ≤ r'.counted)
    (hnow : r'.counted ≤ r'.now) : r'.Timely :=
  ⟨hnow, fun t ht => Nat.le_trans (h.total_le t (htally ▸ ht)) hcounted⟩

/-- The tick goes on. -/
theorem Timely.within (h : r.Timely) (htally : r'.tally = r.tally) (hin : r.stage.inTick = true)
    (hin' : r'.stage.inTick = true) (hstart : r'.cycleStart = r.cycleStart)
    (hnow : r.now ≤ r'.now) : r'.Timely := by
  have hcounted := counted_of_inTick hin
  have hcounted' := (counted_of_inTick hin').trans hstart
  have hle := h.counted_le
  exact h.mono htally (by omega) (by omega)

/-- No tick goes on afterwards. -/
theorem Timely.outside (h : r.Timely) (htally : r'.tally = r.tally)
    (hout : r'.stage.inTick = false) (hnow : r.now ≤ r'.now) : r'.Timely := by
  have hcounted' : r'.counted = r'.now := if_neg (by simp [hout])
  have hle := h.counted_le
  exact h.mono htally (by omega) (by omega)

theorem Timely.advanceTo (h : r.Timely) (now : Nat) : (r.advanceTo now).Timely := by
  have hnow : r.now ≤ max r.now now := Nat.le_max_left ..
  cases hin : r.stage.inTick with
  | true => exact h.within rfl hin hin rfl hnow
  | false => exact h.outside rfl hin hnow

/-- At the end of a tick the tally adds the time since its start. -/
theorem Timely.total_settle_le {i : Nat} (h : r.Timely)
    (hstage : r.stage = .gathering .tick i none) (t : Tally) (ht : t ∈ r.settle.tally) :
    t.total.nanos ≤ r.now := by
  have hin : r.stage.inTick = true := by rw [hstage]; rfl
  have hcounted := h.counted_le
  have htotal := h.total_le
  rw [counted_of_inTick hin] at hcounted htotal
  have hrecord (t₀ : Tally) (result : Option Tally.Summary)
      (heq : (r.tally.bind (·.record (.ofNanos (r.now - r.cycleStart)))) = some (t₀, result)) :
      t₀.total.nanos ≤ r.now := by
    obtain ⟨t₁, ht₁, heq⟩ := Option.bind_eq_some_iff.mp heq
    have h₁ := htotal t₁ ht₁
    have hsum := Tally.total_le_of_record heq
    have helapsed := Duration.nanos_ofNanos_le (r.now - r.cycleStart)
    omega
  unfold settle at ht
  dsimp only at ht
  split at ht
  · next tally summary heq =>
    obtain rfl := Option.some.inj ht
    exact hrecord _ _ heq
  · next tally heq =>
    obtain rfl := Option.some.inj ht
    exact hrecord _ _ heq
  · exact Nat.le_trans (htotal t ht) hcounted

variable [Observer σ] {new : List Mark}

theorem Timely.hostMove (h : r.Timely) (hmove : r.HostMove new r') : r'.Timely := by
  have hin {stage : HostStage} (hstage : r.stage = stage) (hin : stage.inTick = true) :
      r.stage.inTick = true := by rw [hstage, hin]
  cases hmove with
  | settle hstage _ hnext htally =>
    subst htally
    rcases hnext with rfl | ⟨deadline, rfl⟩
    · exact ⟨Nat.le_refl _, h.total_settle_le hstage⟩
    · exact ⟨Nat.le_refl _, h.total_settle_le hstage⟩
  | go => exact h.mono rfl h.counted_le (Nat.le_refl _)
  | tick hstage | announce hstage | gather hstage =>
    exact h.within rfl (hin hstage rfl) rfl rfl (Nat.le_refl _)
  | @proceed round _ _ _ _ hstage | @shutdown round _ _ _ _ _ hstage =>
    cases round with
    | start => exact h.outside rfl rfl (Nat.le_refl _)
    | tick => exact h.within rfl (hin hstage rfl) rfl rfl (Nat.le_refl _)
  | launch hstage =>
    exact h.outside rfl (congrArg HostStage.inTick hstage) (Nat.le_refl _)
  | _ => exact h.outside rfl rfl (Nat.le_refl _)

theorem Timely.moved {move : Move} (h : r.Timely) (hmoved : r.Moved move new r') : r'.Timely := by
  cases hmoved with
  | host hmove => exact h.hostMove hmove
  | observer _ hmove => cases hmove <;> exact h.mono rfl (Nat.le_refl _) h.counted_le
  | use _ _ hmove => cases hmove <;> exact h.mono rfl (Nat.le_refl _) h.counted_le
  | retire | request => exact h.mono rfl (Nat.le_refl _) h.counted_le
  | elapse => exact h.advanceTo _

theorem Timely.follow {moves : List (Nat × Move)} (h : r.Timely)
    (hfollow : r.follow moves = some (new, r')) : r'.Timely := by
  induction moves generalizing r new with
  | nil =>
    obtain ⟨-, rfl⟩ := Prod.mk.inj (Option.some.inj hfollow)
    exact h
  | cons move moves ih =>
    obtain ⟨next, rest, hnext, hrest, rfl⟩ := follow_cons.mp hfollow
    exact ih ((h.advanceTo move.1).moved (moved_of_step hnext)) hrest

/-- Whatever moves happen at whatever times, the tally can add the tick that ends as long as the
time of the run is a duration. -/
theorem record_of_follow {machine : Machine} {frequency : Float} {reportInterval now i : Nat}
    {observers : List σ} {r₀ : Run σ} {moves : List (Nat × Move)} {ms : List Mark} {t : Tally}
    (hstart : start machine frequency reportInterval observers = .ok r₀)
    (hfollow : r₀.follow moves = some (ms, r)) (hstage : r.stage = .gathering .tick i none)
    (hnow : (r.advanceTo now).now < Duration.limit) (ht : t ∈ r.tally) :
    ∃ t' result,
      t.record (.ofNanos ((r.advanceTo now).now - r.cycleStart)) = some (t', result) := by
  have htimely := ((timely_of_start hstart).follow hfollow).advanceTo now
  have hin : r.stage.inTick = true := by rw [hstage]; rfl
  have hbegun : (r.advanceTo now).counted = r.cycleStart := counted_of_inTick hin
  have hcounted := htimely.counted_le
  have htotal := htimely.total_le t ht
  rw [hbegun] at hcounted htotal
  have helapsed := Duration.nanos_ofNanos_le ((r.advanceTo now).now - r.cycleStart)
  cases hrecord : t.record (.ofNanos ((r.advanceTo now).now - r.cycleStart)) with
  | some p => exact ⟨p.1, p.2, rfl⟩
  | none =>
    have hlimit := Tally.record_eq_none.mp hrecord
    omega

end Run

end Dcpu16
