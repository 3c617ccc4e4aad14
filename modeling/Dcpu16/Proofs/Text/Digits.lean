import Dcpu16.Proofs.Text.Radix
import Mathlib.Data.List.Induction

/-! Digits and the numbers that they denote.  Digits are read as a number exactly when there is one
or more of them and each is a digit of the base, in either case. -/

namespace Dcpu16.Text

/-- The character is the digit `d` of a base up to sixteen, in either case. -/
def IsDigit (base : Nat) (c : Char) (d : Nat) : Prop :=
  d < base ∧ (c = d.digitChar ∨ c = d.digitChar.toUpper)

/-- One or more digits, most significant first, and their number. -/
inductive Denotes (base : Nat) : List Char → Nat → Prop
  | digit {c : Char} {d : Nat} : IsDigit base c d → Denotes base [c] d
  | push {cs : List Char} {n : Nat} {c : Char} {d : Nat} : Denotes base cs n → IsDigit base c d →
      Denotes base (cs ++ [c]) (n * base + d)

variable {base : Nat} {c : Char} {cs : List Char}

theorem toNat_digitChar :
    ∀ d < 16, d.digitChar.toNat = if d < 10 then 48 + d else 87 + d := by decide

theorem digit?_eq_some (hbase : base ≤ 16) {d : Nat} :
    digit? base c = some d ↔ IsDigit base c d := by
  have hdigit (hd : d < base) : c = d.digitChar ∨ c = d.digitChar.toUpper ↔
      c.toNat = (if d < 10 then 48 + d else 87 + d) ∨
        c.toNat = if d < 10 then 48 + d else 55 + d := by
    rw [← Char.toNat_inj, ← Char.toNat_inj, toNat_toUpper, toNat_digitChar d (by omega)]
    split <;> split <;> omega
  rw [IsDigit, and_congr_right hdigit]
  simp only [digit?, Bool.and_eq_true, decide_eq_true_eq]
  grind

/-- The number of a run of digits, which may be empty. -/
def number? (base : Nat) (cs : List Char) : Option Nat :=
  (cs.mapM (digit? base)).map (ofDigits base)

theorem readNat?_eq (hne : cs ≠ []) : readNat? base cs = number? base cs :=
  if_neg (by simpa using hne)

theorem number?_append_singleton (cs : List Char) (c : Char) : number? base (cs ++ [c]) =
    (number? base cs).bind fun n => (digit? base c).map (n * base + ·) := by
  simp only [number?, List.mapM_append, List.mapM_cons, List.mapM_nil]
  cases cs.mapM (digit? base) with
  | none => rfl
  | some ds =>
    cases digit? base c with
    | none => rfl
    | some d => simp [ofDigits]

theorem number?_eq_some (hbase : base ≤ 16) (hne : cs ≠ []) {n : Nat} :
    number? base cs = some n ↔ Denotes base cs n := by
  constructor
  · intro h
    induction cs using List.reverseRecOn generalizing n with
    | nil => exact absurd rfl hne
    | append_singleton cs c ih =>
      rw [number?_append_singleton] at h
      obtain ⟨m, hm, h⟩ := Option.bind_eq_some_iff.mp h
      obtain ⟨d, hd, rfl⟩ := Option.map_eq_some_iff.mp h
      have hdigit := (digit?_eq_some hbase).mp hd
      by_cases hcs : cs = []
      · subst hcs
        obtain rfl : 0 = m := Option.some.inj hm
        rw [Nat.zero_mul, Nat.zero_add]
        exact .digit hdigit
      · exact .push (ih hcs hm) hdigit
  · intro h
    clear hne
    induction h with
    | @digit c d hd =>
      have hdigit := (digit?_eq_some hbase).mpr hd
      simp [number?, ofDigits, hdigit]
    | push _ hd ih =>
      rw [number?_append_singleton, ih, (digit?_eq_some hbase).mpr hd]
      rfl

theorem Denotes.ne_nil {n : Nat} (h : Denotes base cs n) : cs ≠ [] := by
  cases h with
  | digit => exact List.cons_ne_nil _ _
  | push => simp

theorem readNat?_iff (hbase : base ≤ 16) {n : Nat} :
    readNat? base cs = some n ↔ Denotes base cs n := by
  by_cases hne : cs = []
  · subst hne
    exact ⟨nofun, fun h => absurd rfl h.ne_nil⟩
  · rw [readNat?_eq hne, number?_eq_some hbase hne]

/-! ### Signs -/

theorem Denotes.forall_mem {n : Nat} (h : Denotes base cs n) {p : Char → Prop}
    (hp : ∀ c d, IsDigit base c d → p c) : ∀ c ∈ cs, p c := by
  induction h with
  | digit hd => simpa using hp _ _ hd
  | push _ hd ih =>
    intro c hc
    rcases List.mem_append.mp hc with hc | hc
    · exact ih c hc
    · rw [List.mem_singleton.mp hc]
      exact hp _ _ hd

/-- No other character stands among digits. -/
theorem Denotes.not_mem {n : Nat} (h : Denotes base cs n) (hbase : base ≤ 16)
    (hc : ∀ d < 16, c ≠ d.digitChar ∧ c ≠ d.digitChar.toUpper) : c ∉ cs := by
  have hother : ∀ e ∈ cs, c ≠ e := by
    refine h.forall_mem fun e d he => ?_
    obtain ⟨hd, rfl | rfl⟩ := he
    · exact (hc d (by omega)).1
    · exact (hc d (by omega)).2
  exact fun hmem => hother c hmem rfl

theorem Denotes.plus_not_mem {n : Nat} (h : Denotes base cs n) (hbase : base ≤ 16) : '+' ∉ cs :=
  h.not_mem hbase (by decide)

theorem Denotes.minus_not_mem {n : Nat} (h : Denotes base cs n) (hbase : base ≤ 16) : '-' ∉ cs :=
  h.not_mem hbase (by decide)

theorem readUnsigned?_iff (hbase : base ≤ 16) {n : Nat} : readUnsigned? base cs = some n ↔
    ∃ sign digits, sign ∈ [[], ['+']] ∧ cs = sign ++ digits ∧ Denotes base digits n := by
  constructor
  · intro h
    unfold readUnsigned? at h
    split at h
    · next cs => exact ⟨['+'], cs, by simp, rfl, (readNat?_iff hbase).mp h⟩
    · exact ⟨[], cs, by simp, rfl, (readNat?_iff hbase).mp h⟩
  · rintro ⟨sign, digits, hsign, rfl, h⟩
    simp only [List.mem_cons, List.not_mem_nil, or_false] at hsign
    rcases hsign with rfl | rfl
    · rw [List.nil_append, readUnsigned?_eq (h.plus_not_mem hbase)]
      exact (readNat?_iff hbase).mpr h
    · exact (readNat?_iff hbase).mpr h

/-- Digits behind a sign, which may be left out, and their number. -/
inductive DenotesSigned (base : Nat) : List Char → Int → Prop
  | unsigned {cs : List Char} {n : Nat} : Denotes base cs n → DenotesSigned base cs n
  | plus {cs : List Char} {n : Nat} : Denotes base cs n → DenotesSigned base ('+' :: cs) n
  | minus {cs : List Char} {n : Nat} : Denotes base cs n → DenotesSigned base ('-' :: cs) (-n)

theorem readSigned?_iff (hbase : base ≤ 16) {n : Int} :
    readSigned? base cs = some n ↔ DenotesSigned base cs n := by
  constructor
  · intro h
    unfold readSigned? at h
    split at h
    · next cs =>
      obtain ⟨k, hk, rfl⟩ := Option.map_eq_some_iff.mp h
      obtain ⟨m, hm, ⟨⟩⟩ := Option.bind_eq_some_iff.mp hk
      exact .minus ((readNat?_iff hbase).mp hm)
    · obtain ⟨m, hm, rfl⟩ := Option.map_eq_some_iff.mp h
      obtain ⟨sign, digits, hsign, rfl, hdigits⟩ := (readUnsigned?_iff hbase).mp hm
      simp only [List.mem_cons, List.not_mem_nil, or_false] at hsign
      rcases hsign with rfl | rfl
      · exact .unsigned hdigits
      · exact .plus hdigits
  · intro h
    cases h with
    | unsigned h =>
      rw [readSigned?_eq (h.minus_not_mem hbase) (h.plus_not_mem hbase), (readNat?_iff hbase).mpr h]
      rfl
    | plus h =>
      show (readNat? base _).map Int.ofNat = _
      rw [(readNat?_iff hbase).mpr h]
      rfl
    | minus h =>
      simp only [readSigned?, (readNat?_iff hbase).mpr h]
      rfl

end Dcpu16.Text
