import Mathlib.Algebra.Order.Ring.Int
import Dcpu16.Proofs.Machine.ClosedForm

/-! What the opcodes compute, said in the integers.  Machine arithmetic has 16 and 32 bits; the
result that it stores is the exact one modulo 65536, and the overflow flag says that the exact one
is not a word. -/

namespace Dcpu16

namespace Opcode

/-- The exact result of an arithmetic opcode.  There is no quotient or remainder by zero. -/
def result? (op : Opcode) (a b : Nat) : Option Int :=
  match op with
  | add => some (a + b)
  | sub => some (a - b)
  | mul => some (a * b)
  | div => if b = 0 then none else some (a / b)
  | mod => if b = 0 then none else some (a % b)
  | shl => some (a * 2 ^ b)
  | shr => some (a / 2 ^ b)
  | _ => none

/-- What a bitwise opcode makes of two bits; `SET` takes the second. -/
def bit? : Opcode → Option (Bool → Bool → Bool)
  | set => some fun _ y => y
  | and => some fun x y => x && y
  | bor => some fun x y => x || y
  | xor => some fun x y => x ^^ y
  | _ => none

/-- The relation that a conditional tests. -/
def relation? : Opcode → Option (Nat → Nat → Prop)
  | ife => some fun a b => a = b
  | ifn => some fun a b => a ≠ b
  | ifg => some fun a b => b < a
  | ifb => some fun a b => a &&& b ≠ 0
  | _ => none

/-- The outcome that exact arithmetic on `a` and `b` asks for. -/
inductive Prescribes (a b : Nat) : Opcode → Outcome → Prop where
  | arithmetic {op : Opcode} {r : Int} {v : UInt16} (exact : op.result? a b = some r)
      (value : (v.toNat : Int) = r % 65536) :
      Prescribes a b op (.write v (some (decide (r < 0 ∨ 65535 < r))))
  | quotientByZero (zero : b = 0) : Prescribes a b div (.write 0 (some true))
  | remainderByZero (zero : b = 0) : Prescribes a b mod (.write 0 (some false))
  | bitwise {op : Opcode} {f : Bool → Bool → Bool} {v : UInt16} (bits : op.bit? = some f)
      (value : ∀ k, v.toNat.testBit k = f (a.testBit k) (b.testBit k)) :
      Prescribes a b op (.write v none)
  | idle : Prescribes a b nop .nothing
  | passes {op : Opcode} {R : Nat → Nat → Prop} (tests : op.relation? = some R) (holds : R a b) :
      Prescribes a b op .nothing
  | skips {op : Opcode} {R : Nat → Nat → Prop} (tests : op.relation? = some R) (fails : ¬R a b) :
      Prescribes a b op .skip

end Opcode

/-! ### Shifts -/

theorem toNat_shiftLeft_wide (a : UInt16) {b : UInt16} (hb : b < 16) :
    (a.toUInt32 <<< b.toUInt32).toNat = a.toNat * 2 ^ b.toNat := by
  have hb : b.toNat < 16 := hb
  have ha := a.toNat_lt
  have hpow : 2 ^ b.toNat ≤ 2 ^ 15 := Nat.pow_le_pow_right (by decide) (by omega)
  have hle : a.toNat * 2 ^ b.toNat ≤ 65535 * 2 ^ 15 := Nat.mul_le_mul (by omega) hpow
  rw [UInt32.toNat_shiftLeft, UInt16.toNat_toUInt32, UInt16.toNat_toUInt32, Nat.shiftLeft_eq,
    Nat.mod_eq_of_lt (show b.toNat < 32 by omega), Nat.mod_eq_of_lt (by omega)]

theorem mul_two_pow_mod {b : Nat} (hb : 16 ≤ b) (a : Nat) : a * 2 ^ b % 65536 = 0 := by
  apply Nat.mod_eq_zero_of_dvd
  have hdvd : 2 ^ 16 ∣ 2 ^ b := Nat.pow_dvd_pow 2 hb
  exact Nat.dvd_trans hdvd (Nat.dvd_mul_left _ a)

theorem lt_mul_two_pow {a b : Nat} (ha : 0 < a) (hb : 16 ≤ b) : 65535 < a * 2 ^ b := by
  have hpow : 2 ^ 16 ≤ 2 ^ b := Nat.pow_le_pow_right (by decide) hb
  have hle : 1 * 2 ^ 16 ≤ a * 2 ^ b := Nat.mul_le_mul ha hpow
  omega

theorem div_two_pow_eq_zero {a b : Nat} (ha : a < 65536) (hb : 16 ≤ b) : a / 2 ^ b = 0 := by
  have hpow : 2 ^ 16 ≤ 2 ^ b := Nat.pow_le_pow_right (by decide) hb
  exact Nat.div_eq_of_lt (by omega)

/-! ### Outcomes -/

/-- A wide result that has not wrapped is stored and flagged as the exact result asks. -/
theorem Outcome.wide_eq {raw : UInt32} {r : Int} (h : (raw.toNat : Int) = r) :
    ∃ v : UInt16, (v.toNat : Int) = r % 65536 ∧
      wide raw = .write v (some (decide (r < 0 ∨ 65535 < r))) := by
  refine ⟨raw.toUInt16, ?_, ?_⟩
  · rw [UInt32.toNat_toUInt16, ← h]
    omega
  · have hflag : (0xFFFF < raw) ↔ (r < 0 ∨ 65535 < r) := by
      rw [UInt32.lt_iff_toNat_lt, ← h]
      show 65535 < raw.toNat ↔ _
      omega
    rw [wide, decide_eq_decide.mpr hflag]

/-- A word is its own exact result. -/
theorem Outcome.write_eq {v : UInt16} {r : Int} (h : (v.toNat : Int) = r) :
    ∃ v' : UInt16, (v'.toNat : Int) = r % 65536 ∧
      write v (some false) = .write v' (some (decide (r < 0 ∨ 65535 < r))) := by
  have hv := v.toNat_lt
  refine ⟨v, by omega, ?_⟩
  rw [decide_eq_false (by omega)]

namespace Opcode

variable {op : Opcode} {a b : UInt16}

theorem outcome_shl {r : Int} (h : ((a.toNat * 2 ^ b.toNat : Nat) : Int) = r) :
    ∃ v : UInt16, (v.toNat : Int) = r % 65536 ∧
      shl.outcome a b = .write v (some (decide (r < 0 ∨ 65535 < r))) := by
  by_cases hb : b < 16
  · rw [outcome, if_pos hb]
    exact Outcome.wide_eq (by rw [toNat_shiftLeft_wide a hb, h])
  · have hb16 : 16 ≤ b.toNat := UInt16.le_iff_toNat_le.mp (UInt16.not_lt.mp hb)
    have hmod := mul_two_pow_mod hb16 a.toNat
    refine ⟨0, ?_, ?_⟩
    · show (0 : Int) = _
      omega
    · have hflag : (a != 0) = decide (r < 0 ∨ 65535 < r) := by
        rw [Bool.eq_iff_iff, decide_eq_true_iff, bne_iff_ne, Ne, ← UInt16.toNat_inj]
        show ¬a.toNat = 0 ↔ _
        constructor
        · intro ha
          have hlt := lt_mul_two_pow (Nat.pos_of_ne_zero ha) hb16
          omega
        · intro hr ha
          rw [ha, Nat.zero_mul] at h
          omega
      rw [outcome, if_neg hb, hflag]

theorem outcome_shr (a b : UInt16) : ∃ v : UInt16, (v.toNat : Int) = a.toNat / 2 ^ b.toNat ∧
    shr.outcome a b = .write v (some false) := by
  refine ⟨_, ?_, rfl⟩
  by_cases hb : b < 16
  · have hb16 : b.toNat < 16 := hb
    rw [if_pos hb, UInt16.toNat_shiftRight, Nat.mod_eq_of_lt hb16, Nat.shiftRight_eq_div_pow]
    norm_cast
  · have hb16 : 16 ≤ b.toNat := UInt16.le_iff_toNat_le.mp (UInt16.not_lt.mp hb)
    have hzero := div_two_pow_eq_zero a.toNat_lt hb16
    rw [if_neg hb]
    norm_cast
    rw [hzero]
    rfl

theorem outcome_of_result {r : Int} (h : op.result? a.toNat b.toNat = some r) : ∃ v : UInt16,
    (v.toNat : Int) = r % 65536 ∧
      op.outcome a b = .write v (some (decide (r < 0 ∨ 65535 < r))) := by
  have ha := a.toNat_lt
  have hb := b.toNat_lt
  cases op with
  | add =>
    obtain rfl := Option.some.inj h
    refine Outcome.wide_eq ?_
    rw [UInt32.toNat_add, UInt16.toNat_toUInt32, UInt16.toNat_toUInt32,
      Nat.mod_eq_of_lt (by omega)]
    rfl
  | sub =>
    obtain rfl := Option.some.inj h
    refine ⟨a - b, ?_, ?_⟩
    · rw [UInt16.toNat_sub]
      omega
    · have hflag : a < b ↔
          (a.toNat : Int) - b.toNat < 0 ∨ 65535 < (a.toNat : Int) - b.toNat := by
        rw [UInt16.lt_iff_toNat_lt]
        omega
      rw [outcome, decide_eq_decide.mpr hflag]
  | mul =>
    obtain rfl := Option.some.inj h
    have hle : a.toNat * b.toNat ≤ 65535 * 65535 := Nat.mul_le_mul (by omega) (by omega)
    refine Outcome.wide_eq ?_
    rw [UInt32.toNat_mul, UInt16.toNat_toUInt32, UInt16.toNat_toUInt32,
      Nat.mod_eq_of_lt (by omega)]
    norm_cast
  | div =>
    by_cases hzero : b.toNat = 0
    · simp [result?, hzero] at h
    · have hne : b ≠ 0 := fun h0 => hzero (by rw [h0]; rfl)
      obtain rfl : (a.toNat : Int) / b.toNat = r := by simpa [result?, hzero] using h
      rw [outcome, if_neg hne]
      exact Outcome.write_eq (by rw [UInt16.toNat_div]; norm_cast)
  | mod =>
    by_cases hzero : b.toNat = 0
    · simp [result?, hzero] at h
    · have hne : b ≠ 0 := fun h0 => hzero (by rw [h0]; rfl)
      obtain rfl : (a.toNat : Int) % b.toNat = r := by simpa [result?, hzero] using h
      rw [outcome, if_neg hne]
      exact Outcome.write_eq (by rw [UInt16.toNat_mod]; norm_cast)
  | shl =>
    obtain rfl := Option.some.inj h
    exact outcome_shl (by norm_cast)
  | shr =>
    obtain rfl := Option.some.inj h
    obtain ⟨v, hv, ho⟩ := outcome_shr a b
    rw [ho]
    exact Outcome.write_eq hv
  | _ => cases h

theorem outcome_of_bit {f : Bool → Bool → Bool} (h : op.bit? = some f) : ∃ v : UInt16,
    (∀ k, v.toNat.testBit k = f (a.toNat.testBit k) (b.toNat.testBit k)) ∧
      op.outcome a b = .write v none := by
  cases op with
  | set | and | bor | xor =>
    obtain rfl := Option.some.inj h
    refine ⟨_, fun k => ?_, rfl⟩
    simp
  | _ => cases h

theorem outcome_of_relation {R : Nat → Nat → Prop} (h : op.relation? = some R) :
    (R a.toNat b.toNat → op.outcome a b = .nothing) ∧
      (¬R a.toNat b.toNat → op.outcome a b = .skip) := by
  have hskip {p : Prop} {c : Bool} (hc : c = true ↔ p) :
      (p → Outcome.skipUnless c = .nothing) ∧ (¬p → Outcome.skipUnless c = .skip) := by
    rw [← hc]
    cases c <;> simp [Outcome.skipUnless]
  cases op with
  | ife | ifn | ifg | ifb =>
    obtain rfl := Option.some.inj h
    apply hskip
    simp [UInt16.lt_iff_toNat_lt, ← UInt16.toNat_inj]
  | _ => cases h

theorem prescribes_outcome (op : Opcode) (a b : UInt16) :
    op.Prescribes a.toNat b.toNat (op.outcome a b) := by
  have hrelation {R : Nat → Nat → Prop} (h : op.relation? = some R) :
      op.Prescribes a.toNat b.toNat (op.outcome a b) := by
    by_cases hR : R a.toNat b.toNat
    · rw [(outcome_of_relation h).1 hR]
      exact .passes h hR
    · rw [(outcome_of_relation h).2 hR]
      exact .skips h hR
  have hexact {r : Int} (h : op.result? a.toNat b.toNat = some r) :
      op.Prescribes a.toNat b.toNat (op.outcome a b) := by
    obtain ⟨v, hv, ho⟩ := outcome_of_result h
    rw [ho]
    exact .arithmetic h hv
  have hbit {f : Bool → Bool → Bool} (h : op.bit? = some f) :
      op.Prescribes a.toNat b.toNat (op.outcome a b) := by
    obtain ⟨v, hv, ho⟩ := outcome_of_bit (a := a) (b := b) h
    rw [ho]
    exact .bitwise h hv
  cases op with
  | nop => exact .idle
  | set | and | bor | xor => exact hbit rfl
  | ife | ifn | ifg | ifb => exact hrelation rfl
  | add | sub | mul | shl | shr => exact hexact rfl
  | div =>
    by_cases hzero : b.toNat = 0
    · obtain rfl : b = 0 := UInt16.toNat_inj.mp hzero
      exact .quotientByZero hzero
    · exact hexact (if_neg hzero)
  | mod =>
    by_cases hzero : b.toNat = 0
    · obtain rfl : b = 0 := UInt16.toNat_inj.mp hzero
      exact .remainderByZero hzero
    · exact hexact (if_neg hzero)

theorem eq_outcome_of_prescribes {o : Outcome} (h : op.Prescribes a.toNat b.toNat o) :
    o = op.outcome a b := by
  cases h with
  | arithmetic exact value =>
    obtain ⟨v, hv, ho⟩ := outcome_of_result exact
    have hword := UInt16.toNat_inj.mp (Int.ofNat_inj.mp (value.trans hv.symm))
    rw [ho, hword]
  | quotientByZero zero | remainderByZero zero =>
    obtain rfl : b = 0 := UInt16.toNat_inj.mp zero
    rfl
  | bitwise bits value =>
    obtain ⟨v, hv, ho⟩ := outcome_of_bit (a := a) (b := b) bits
    have hword := Nat.eq_of_testBit_eq fun k => (value k).trans (hv k).symm
    rw [ho, UInt16.toNat_inj.mp hword]
  | idle => rfl
  | passes tests holds => rw [(outcome_of_relation tests).1 holds]
  | skips tests fails => rw [(outcome_of_relation tests).2 fails]

theorem affectsOverflow_iff (op : Opcode) (a b : UInt16) :
    op.affectsOverflow = (op.outcome a b).flag?.isSome := by
  cases op with
  | div | shl =>
    rw [outcome]
    split <;> rfl
  | ife | ifn | ifg | ifb =>
    rw [outcome, Outcome.skipUnless]
    split <;> rfl
  | _ => rfl

/-- Every opcode has the outcome that exact arithmetic asks for and no other, and the opcodes that
are said to set the overflow flag are the ones whose outcome has a flag. -/
theorem outcome_exact (op : Opcode) (a b : UInt16) :
    (∀ o, op.Prescribes a.toNat b.toNat o ↔ o = op.outcome a b) ∧
      op.affectsOverflow = (op.outcome a b).flag?.isSome := by
  refine ⟨fun o => ⟨eq_outcome_of_prescribes, ?_⟩, op.affectsOverflow_iff a b⟩
  rintro rfl
  exact op.prescribes_outcome a b

end Opcode

end Dcpu16
