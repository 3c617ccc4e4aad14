import Dcpu16.Decimal.Style
import Dcpu16.Proofs.Json.Tokens
import Dcpu16.Proofs.Text.Digits
import Mathlib.Data.List.DropRight

/-! Numerals with digits in all places and no needless zero in front are read as themselves.  The
numerals of floats are of this kind: the shortest digits of a positive number start with another
digit than zero, wherever the point comes to stand among them. -/

namespace Dcpu16

/-! ### Reading numerals -/

theorem Text.denotes_toDigits (n : Nat) : Denotes 10 (Nat.toDigits 10 n) n := by
  induction n using Nat.base_induction 10 (by decide) with
  | single d hd =>
    rw [Nat.toDigits_of_lt_base hd]
    exact .digit ⟨hd, .inl rfl⟩
  | digit n d hd hn ih =>
    rw [← Nat.toDigits_append_toDigits (by decide) hn hd, Nat.toDigits_of_lt_base hd,
      Nat.mul_comm]
    exact ih.push ⟨hd, .inl rfl⟩

namespace Json

open Decimal (Numeral)

theorem isNumberPart_of_isDigit {c : Char} (h : c.isDigit = true) : isNumberPart c = true := by
  simp [isNumberPart, h]

theorem isDigit_of_mem_toDigits {n : Nat} {c : Char} (h : c ∈ Nat.toDigits 10 n) :
    c.isDigit = true := Nat.isDigit_of_mem_toDigits (by decide) (by decide) h

/-- An exponent as it is written. -/
def exponentChars : Option Int → List Char
  | none => []
  | some (.ofNat n) => 'e' :: '+' :: Nat.toDigits 10 n
  | some (.negSucc n) => 'e' :: '-' :: Nat.toDigits 10 (n + 1)

theorem readExponent?_exponentChars (e : Option Int) :
    Numeral.readExponent? (exponentChars e) = some e := by
  have hread {cs : List Char} {n : Int} (h : Text.DenotesSigned 10 cs n) :
      Numeral.readExponent? ('e' :: cs) = some (some n) := by
    simp [Numeral.readExponent?, (Text.readSigned?_iff (by decide)).mpr h]
  cases e with
  | none => rfl
  | some e =>
    cases e with
    | ofNat n => exact hread (.plus (Text.denotes_toDigits n))
    | negSucc n => exact hread (.minus (Text.denotes_toDigits (n + 1)))

theorem isNumberPart_of_mem_exponentChars {e : Option Int} :
    ∀ c ∈ exponentChars e, isNumberPart c = true := by
  have hdigits (n : Nat) : ∀ c ∈ Nat.toDigits 10 n, isNumberPart c = true := fun c hc =>
    isNumberPart_of_isDigit (isDigit_of_mem_toDigits hc)
  cases e with
  | none => simp [exponentChars]
  | some e =>
    cases e with
    | ofNat n => simpa [exponentChars, isNumberPart] using hdigits n
    | negSucc n => simpa [exponentChars, isNumberPart] using hdigits (n + 1)

/-- A fraction as it is written. -/
def fractionChars (fraction : List Char) : List Char :=
  if fraction.isEmpty then [] else '.' :: fraction

theorem toList_exponent (e : Int) :
    (if e < 0 then s!"e{e}" else s!"e+{e}").toList = exponentChars (some e) := by
  cases e with
  | ofNat n =>
    have hn : ¬Int.ofNat n < 0 := Int.not_lt.mpr (Int.natCast_nonneg n)
    rw [if_neg hn]
    simp [exponentChars, toString, Int.repr, Nat.repr]
  | negSucc n => simp [Int.negSucc_lt_zero, exponentChars, toString, Int.repr, Nat.repr]

theorem toList_text (n : Numeral) : n.text.toList =
    (if n.negative then ['-'] else []) ++
      (n.whole ++ (fractionChars n.fraction ++ exponentChars n.exponent)) := by
  have hsign : (if n.negative then "-" else "").toList = if n.negative then ['-'] else [] := by
    split <;> rfl
  have hfraction : (if n.fraction.isEmpty then "" else "." ++ String.ofList n.fraction).toList =
      fractionChars n.fraction := by
    rw [fractionChars]
    split <;> simp
  cases hexponent : n.exponent with
  | none =>
    simp only [Numeral.text, hexponent, String.toList_append, String.toList_ofList, hsign,
      hfraction, exponentChars, List.append_assoc]
    rfl
  | some e =>
    simp only [Numeral.text, hexponent, String.toList_append, String.toList_ofList, hsign,
      hfraction, toList_exponent, List.append_assoc]

/-- No digit goes on with this text. -/
def EndsDigits (cs : List Char) : Prop := ∀ c ∈ cs.head?, c.isDigit = false

theorem endsDigits_exponentChars (e : Option Int) : EndsDigits (exponentChars e) := by
  cases e with
  | none => simp [EndsDigits, exponentChars]
  | some e => cases e <;> simp [EndsDigits, exponentChars]

theorem fractionOf?_fractionChars {fraction : List Char} (h : ∀ c ∈ fraction, c.isDigit = true)
    (e : Option Int) :
    fractionOf? (fractionChars fraction ++ exponentChars e) = some (fraction, exponentChars e) := by
  cases fraction with
  | nil =>
    cases e with
    | none => rfl
    | some e => cases e <;> rfl
  | cons c cs =>
    obtain ⟨htake, hdrop⟩ := takeWhile_run h (endsDigits_exponentChars e)
    rw [List.cons_append] at htake hdrop
    simp [fractionChars, fractionOf?, htake, hdrop]

theorem endsDigits_append (fraction : List Char) (e : Option Int) :
    EndsDigits (fractionChars fraction ++ exponentChars e) := by
  cases fraction with
  | nil => exact endsDigits_exponentChars e
  | cons c cs => simp [EndsDigits, fractionChars]

/-- A numeral with digits in all places, and with no needless zero in front. -/
structure Plain (n : Numeral) : Prop where
  whole_ne_nil : n.whole ≠ []
  whole : ∀ c ∈ n.whole, c.isDigit = true
  first : 1 < n.whole.length → n.whole.head? ≠ some '0'
  fraction : ∀ c ∈ n.fraction, c.isDigit = true

/-- Digits that start with another digit than zero may be followed by any. -/
theorem Plain.of_first {n : Numeral} {d : Char} {ds : List Char} (hwhole : n.whole = d :: ds)
    (hd : d ≠ '0') (hdigits : ∀ c ∈ n.whole, c.isDigit = true)
    (hfraction : ∀ c ∈ n.fraction, c.isDigit = true) : Plain n where
  whole_ne_nil := by simp [hwhole]
  whole := hdigits
  first _ := by simpa [hwhole] using hd
  fraction := hfraction

theorem Plain.isNumberPart_of_mem_text {n : Numeral} (h : Plain n) :
    ∀ c ∈ n.text.toList, isNumberPart c = true := by
  intro c hc
  rw [toList_text] at hc
  simp only [List.mem_append] at hc
  rcases hc with hc | hc | hc | hc
  · split at hc
    · obtain rfl := List.mem_singleton.mp hc
      rfl
    · cases hc
  · exact isNumberPart_of_isDigit (h.whole c hc)
  · rw [fractionChars] at hc
    split at hc
    · cases hc
    · rcases List.mem_cons.mp hc with rfl | hc
      · rfl
      · exact isNumberPart_of_isDigit (h.fraction c hc)
  · exact isNumberPart_of_mem_exponentChars c hc

theorem Plain.numeralOf?_text {n : Numeral} (h : Plain n) :
    numeralOf? n.text.toList = some n := by
  obtain ⟨htake, hdrop⟩ := takeWhile_run h.whole (endsDigits_append n.fraction n.exponent)
  have hzero : ¬(n.whole.head? = some '0' ∧ 1 < n.whole.length) := fun hz => h.first hz.2 hz.1
  rw [toList_text]
  obtain ⟨negative, whole, fraction, exponent⟩ := n
  have hnonempty : whole ≠ [] := h.whole_ne_nil
  dsimp only at htake hdrop hzero ⊢
  unfold numeralOf?
  cases negative with
  | true =>
    simp only [if_true, List.singleton_append, htake, hdrop, fractionOf?_fractionChars h.fraction]
    simp [readExponent?_exponentChars, hnonempty, hzero]
  | false =>
    simp only [Bool.false_eq_true, if_false, List.nil_append]
    split
    next cs hrun =>
      -- a digit stands where the sign would
      have hminus : '-' ∈ whole := by
        obtain ⟨d, ds, rfl⟩ := List.exists_cons_of_ne_nil hnonempty
        rw [List.cons_append] at hrun
        exact (List.cons.inj hrun).1 ▸ List.mem_cons_self
      exact absurd (h.whole '-' hminus) (by decide)
    next =>
      simp only [htake, hdrop, fractionOf?_fractionChars h.fraction]
      simp [readExponent?_exponentChars, hnonempty, hzero]

theorem Plain.readable {n : Numeral} (h : Plain n) : Readable n :=
  ⟨h.isNumberPart_of_mem_text, h.numeralOf?_text⟩

/-- Only zero is written with a zero in front. -/
theorem head?_toDigits_ne {n : Nat} (h : n ≠ 0) : (Nat.toDigits 10 n).head? ≠ some '0' := by
  have hdigit : ∀ d < 10, d ≠ 0 → d.digitChar ≠ '0' := by decide
  induction n using Nat.base_induction 10 (by decide) with
  | single d hd =>
    rw [Nat.toDigits_of_lt_base hd]
    simpa using hdigit d hd h
  | digit n d hd hn ih =>
    rw [← Nat.toDigits_append_toDigits (by decide) hn hd,
      List.head?_append_of_ne_nil _ Nat.toDigits_ne_nil]
    exact ih (Nat.ne_of_gt hn)

theorem plain_ofNat (n : Nat) : Plain (.ofNat n) where
  whole_ne_nil := Nat.toDigits_ne_nil
  whole _ := isDigit_of_mem_toDigits
  first h := by
    refine head?_toDigits_ne ?_
    rintro rfl
    simp [Numeral.ofNat] at h
  fraction := nofun

end Json

namespace Decimal

/-! ### Shortest digits -/

theorem Interval.contains_zero {i : Interval} (h : i.low ≠ 0) (ten : Int) :
    i.contains 0 ten = false := by
  have hlow : 0 < (ratio i.low i.exponent ten).1 :=
    Nat.mul_pos (Nat.mul_pos (Nat.pos_of_ne_zero h) (Nat.pow_pos (by decide)))
      (Nat.pow_pos (by decide))
  simp [contains, Nat.ne_of_gt hlow]

theorem Interval.nearest?_ne_zero {i : Interval} (h : i.low ≠ 0) {tie : Tie} {ten : Int} {n : Nat}
    (hn : i.nearest? tie ten = some n) : n ≠ 0 := by
  rintro rfl
  have hzero := contains_zero h ten
  simp only [nearest?] at hn
  split at hn
  next hbelow _ =>
    split at hn
    · cases hn
    · rw [Option.some.inj hn, hzero] at hbelow
      cases hbelow
  next hbelow _ =>
    rw [Option.some.inj hn, hzero] at hbelow
    cases hbelow
  next => cases hn
  next => cases hn

theorem Interval.search_ne_zero {i : Interval} (hlow : i.low ≠ 0) (hmiddle : i.middle ≠ 0)
    (tie : Tie) (grids : Nat) (ten : Int) : (i.search tie grids ten).1 ≠ 0 := by
  induction grids generalizing ten with
  | zero => exact hmiddle
  | succ grids ih =>
    rw [search]
    split
    next n hn => exact nearest?_ne_zero hlow hn
    next => exact ih _

/-- Digits that start with another digit than zero still do so without the zeros at their end. -/
theorem exists_trimmed {cs : List Char} (hne : cs ≠ []) (hfirst : cs.head? ≠ some '0') :
    ∃ d ds, (cs.reverse.dropWhile (· == '0')).reverse = d :: ds ∧ d ≠ '0' ∧ d :: ds <+: cs := by
  obtain ⟨c, cs, rfl⟩ := List.exists_cons_of_ne_nil hne
  have hc : c ≠ '0' := by simpa using hfirst
  have hstart := List.rdropWhile_prefix (· == '0') (l := c :: cs)
  rw [List.rdropWhile] at hstart
  have hkept : (c :: cs).rdropWhile (· == '0') ≠ [] := fun hnil =>
    hc (beq_iff_eq.mp (List.rdropWhile_eq_nil_iff.mp hnil c List.mem_cons_self))
  obtain ⟨d, ds, hkept⟩ := List.exists_cons_of_ne_nil hkept
  rw [List.rdropWhile] at hkept
  rw [hkept] at hstart ⊢
  exact ⟨d, ds, rfl, (List.cons_prefix_cons.mp hstart).1 ▸ hc, hstart⟩

/-- The shortest digits of a positive number start with another digit than zero. -/
theorem shortest_digits (tie : Tie) {significand : Nat} (h : significand ≠ 0) (exponent : Int) :
    ∃ d ds, (shortest tie significand exponent).1 = d :: ds ∧ d ≠ '0' ∧
      ∀ c ∈ d :: ds, c.isDigit = true := by
  have hlow : (Interval.of significand exponent).low ≠ 0 := by
    simp only [Interval.of]
    split <;> omega
  have hmiddle : (Interval.of significand exponent).middle ≠ 0 := by
    simp only [Interval.of]
    omega
  have hn := Interval.search_ne_zero hlow hmiddle tie maxDigits
    (magnitude (ratio significand exponent 0).1 (ratio significand exponent 0).2)
  obtain ⟨d, ds, hkept, hd, hstart⟩ :=
    exists_trimmed Nat.toDigits_ne_nil (Json.head?_toDigits_ne hn)
  exact ⟨d, ds, hkept, hd, fun c hc => Json.isDigit_of_mem_toDigits (hstart.subset hc)⟩

/-! ### Floats -/

theorem Style.plain_numeral (style : Style) (negative : Bool) {d : Char} {ds : List Char}
    (hd : d ≠ '0') (hdigits : ∀ c ∈ d :: ds, c.isDigit = true) (point : Int) :
    Json.Plain (style.numeral negative (d :: ds) point) := by
  have hzeros (k : Nat) : ∀ c ∈ List.replicate k '0', c.isDigit = true := fun c hc => by
    rw [(List.mem_replicate.mp hc).2]
    rfl
  have hpointZero : ∀ c ∈ if style.pointZero then ['0'] else [], c.isDigit = true := by
    split <;> simp
  unfold numeral
  generalize (if style.pointZero then ['0'] else []) = pointZero at hpointZero
  dsimp only
  split
  next =>
    split
    next =>
      refine ⟨by simp, by simp, by simp, fun c hc => ?_⟩
      exact (List.mem_append.mp hc).elim (hzeros _ c) (hdigits c)
    next hpoint =>
    split
    next =>
      refine .of_first rfl hd (fun c hc => ?_) hpointZero
      exact (List.mem_append.mp hc).elim (hdigits c) (hzeros _ c)
    next =>
      obtain ⟨k, hk⟩ := Nat.exists_eq_add_of_lt (Int.pos_iff_toNat_pos.mp (Int.not_le.mp hpoint))
      rw [Nat.zero_add] at hk
      rw [hk]
      exact .of_first rfl hd (fun c hc => hdigits c (List.mem_of_mem_take hc))
        (fun c hc => hdigits c (List.mem_of_mem_drop hc))
  next =>
    exact .of_first rfl hd (fun c hc => hdigits c (List.mem_of_mem_take hc))
      (fun c hc => hdigits c (List.mem_of_mem_drop hc))

/-- The numeral of a finite float is plain. -/
theorem Style.plain_ofParts (style : Style) (negative : Bool) (significand : Nat) (exponent : Int) :
    Json.Plain (style.ofParts negative significand exponent) := by
  unfold ofParts
  split
  next =>
    refine ⟨by simp, by simp, by simp, ?_⟩
    dsimp only
    split <;> simp
  next h =>
    obtain ⟨d, ds, hshortest, hd, hdigits⟩ := shortest_digits style.tie h exponent
    simp only [hshortest]
    exact style.plain_numeral negative hd hdigits _

end Decimal

end Dcpu16
