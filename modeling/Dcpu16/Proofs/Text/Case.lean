import Dcpu16.Proofs.Text.Radix
import Dcpu16.Proofs.Text.Quotation
import Dcpu16.Text.Upper

/-! Case of letters.  The case of an ASCII letter decides neither where a text is taken apart nor
what it is in upper case; and upper case keeps blanks and makes no plus sign. -/

namespace Dcpu16.Text

/-! ### ASCII letters -/

theorem isAlpha_iff {c : Char} : c.isAlpha = true ↔
    (65 ≤ c.toNat ∧ c.toNat ≤ 90) ∨ (97 ≤ c.toNat ∧ c.toNat ≤ 122) := by
  have hupper : c.isUpper = true ↔ 65 ≤ c.toNat ∧ c.toNat ≤ 90 := decide_eq_true_iff
  have hlower : c.isLower = true ↔ 97 ≤ c.toNat ∧ c.toNat ≤ 122 := by
    show (decide (97 ≤ c.toNat) && decide (c.toNat ≤ 122)) = true ↔ _
    rw [Bool.and_eq_true, decide_eq_true_eq, decide_eq_true_eq]
  rw [← hupper, ← hlower]
  exact Bool.or_eq_true _ _ ▸ Iff.rfl

theorem isAlpha_toUpper (c : Char) : c.toUpper.isAlpha = c.isAlpha := by
  rw [Bool.eq_iff_iff, isAlpha_iff, isAlpha_iff, toNat_toUpper]
  split <;> omega

theorem isDigit_iff {c : Char} : c.isDigit = true ↔ 48 ≤ c.toNat ∧ c.toNat ≤ 57 := by
  rw [Char.isDigit, Bool.and_eq_true, decide_eq_true_eq, decide_eq_true_eq]
  exact Iff.rfl

theorem isDigit_toUpper (c : Char) : c.toUpper.isDigit = c.isDigit := by
  rw [Bool.eq_iff_iff, isDigit_iff, isDigit_iff, toNat_toUpper]
  split <;> omega

/-- What becomes a character other than a letter is that character. -/
theorem toUpper_eq_iff {c d : Char} (hd : d.isAlpha = false) : c.toUpper = d ↔ c = d := by
  have hletter := mt isAlpha_iff.mpr (Bool.eq_false_iff.mp hd)
  rw [← Char.toNat_inj, ← Char.toNat_inj (c := c), toNat_toUpper]
  split <;> omega

theorem toUpper_toUpper (c : Char) : c.toUpper.toUpper = c.toUpper := by
  rw [← Char.toNat_inj, toNat_toUpper, if_neg]
  rw [toNat_toUpper]
  split <;> omega

theorem toUpper_beq {d : Char} (hd : d.isAlpha = false) (c : Char) :
    (c.toUpper == d) = (c == d) := by
  rw [Bool.eq_iff_iff, beq_iff_eq, beq_iff_eq, toUpper_eq_iff hd]

theorem mem_map_toUpper {d : Char} (hd : d.isAlpha = false) {cs : List Char} :
    d ∈ cs.map Char.toUpper ↔ d ∈ cs := by
  simp [List.mem_map, toUpper_eq_iff hd]

theorem isBlank_toUpper (c : Char) : isBlank c.toUpper = isBlank c := by
  have hnat := toNat_toUpper c
  by_cases hletter : 97 ≤ c.toNat ∧ c.toNat ≤ 122
  · rw [if_pos hletter] at hnat
    have hsolid (d : Char) (hlow : 65 ≤ d.toNat) (hhigh : d.toNat ≤ 122) : isBlank d = false := by
      rw [Bool.eq_false_iff]
      intro hblank
      simp only [isBlank, Bool.or_eq_true, Bool.and_eq_true, decide_eq_true_eq,
        beq_iff_eq] at hblank
      omega
    rw [hsolid c (by omega) (by omega), hsolid c.toUpper (by omega) (by omega)]
  · rw [if_neg hletter, Char.toNat_inj] at hnat
    rw [hnat]

theorem trim_map_toUpper (cs : List Char) :
    trim (cs.map Char.toUpper) = (trim cs).map Char.toUpper := by
  have hstart (cs : List Char) :
      trimStart (cs.map Char.toUpper) = (trimStart cs).map Char.toUpper := by
    rw [trimStart, List.dropWhile_map, trimStart]
    congr 2
    exact funext isBlank_toUpper
  have hend (cs : List Char) : trimEnd (cs.map Char.toUpper) = (trimEnd cs).map Char.toUpper := by
    rw [trimEnd, ← List.map_reverse, ← trimStart, hstart, ← List.map_reverse]
    rfl
  rw [trim, hstart, hend]
  rfl

theorem quotedFrom_map_toUpper (inside : Bool) (cs : List Char) :
    quotedFrom inside (cs.map Char.toUpper) =
      (quotedFrom inside cs).map fun q => (q.1.toUpper, q.2) := by
  induction cs generalizing inside with
  | nil => rfl
  | cons c cs ih =>
    have hmark : (c.toUpper == '"') = (c == '"') := toUpper_beq (by decide) c
    simp [ih, hmark]

theorem before_map_toUpper {d : Char} (hd : d.isAlpha = false) (cs : List Char) :
    before d (cs.map Char.toUpper) = (before d cs).map Char.toUpper := by
  have hcut : (fun (q : Char × Bool) => q.2 || q.1.toUpper != d) = fun q => q.2 || q.1 != d := by
    funext q
    rw [bne, bne, toUpper_beq hd]
  show ((quotedFrom false _).takeWhile fun q => q.2 || q.1 != d).map Prod.fst =
    (((quotedFrom false cs).takeWhile fun q => q.2 || q.1 != d).map Prod.fst).map Char.toUpper
  rw [quotedFrom_map_toUpper, List.takeWhile_map, List.map_map, List.map_map]
  simp only [Function.comp_def, hcut]

theorem splitOnP_map {α β : Type} {f : α → β} {p : β → Bool} (xs : List α) :
    (xs.map f).splitOnP p = (xs.splitOnP fun x => p (f x)).map (List.map f) := by
  induction xs with
  | nil => rfl
  | cons x xs ih =>
    rw [List.map_cons, List.splitOnP_cons_eq_if_modifyHead, List.splitOnP_cons_eq_if_modifyHead, ih]
    split
    · rfl
    · cases xs.splitOnP fun x => p (f x) <;> rfl

theorem pieces_map_toUpper {d : Char} (hd : d.isAlpha = false) (cs : List Char) :
    pieces d (cs.map Char.toUpper) = (pieces d cs).map (List.map Char.toUpper) := by
  simp only [pieces, List.splitOn, splitOnP_map, toUpper_beq hd, List.map_map]
  congr 1
  exact funext trim_map_toUpper

theorem piecesOutside_map_toUpper {d : Char} (hd : d.isAlpha = false) (cs : List Char) :
    piecesOutside d (cs.map Char.toUpper) = (piecesOutside d cs).map (List.map Char.toUpper) := by
  simp only [piecesOutside, splitOutside, quoted, quotedFrom_map_toUpper, splitOnP_map,
    toUpper_beq hd, List.map_map]
  congr 1
  funext qs
  simp only [Function.comp_apply, List.map_map]
  rw [← trim_map_toUpper, List.map_map]
  rfl

/-! ### Numbers -/

theorem readUnsigned?_toUpper (base : Nat) (cs : List Char) :
    readUnsigned? base (cs.map Char.toUpper) = readUnsigned? base cs := by
  cases cs with
  | nil => rfl
  | cons c cs =>
    by_cases hplus : c = '+'
    · subst hplus
      exact readNat?_toUpper base cs
    · have hplus' : c.toUpper ≠ '+' := mt (toUpper_eq_iff (by decide)).mp hplus
      have hnone : ∀ {d : Char} {ds : List Char}, d ≠ '+' →
          readUnsigned? base (d :: ds) = readNat? base (d :: ds) := by
        intro d ds hd
        unfold readUnsigned?
        split
        · next heq => exact absurd (List.cons.inj heq).1 hd
        · rfl
      rw [hnone hplus, List.map_cons, hnone hplus', ← List.map_cons, readNat?_toUpper]

theorem readSigned?_toUpper (base : Nat) (cs : List Char) :
    readSigned? base (cs.map Char.toUpper) = readSigned? base cs := by
  cases cs with
  | nil => rfl
  | cons c cs =>
    by_cases hminus : c = '-'
    · subst hminus
      show readSigned? base ('-' :: cs.map Char.toUpper) = _
      simp only [readSigned?, readNat?_toUpper]
    · have hminus' : c.toUpper ≠ '-' := mt (toUpper_eq_iff (by decide)).mp hminus
      have hnone : ∀ {d : Char} {ds : List Char}, d ≠ '-' →
          readSigned? base (d :: ds) = (readUnsigned? base (d :: ds)).map Int.ofNat := by
        intro d ds hd
        unfold readSigned?
        split
        · next heq => exact absurd (List.cons.inj heq).1 hd
        · rfl
      rw [hnone hminus, List.map_cons, hnone hminus', ← List.map_cons, readUnsigned?_toUpper]

/-! ### Upper case -/

theorem upperChar_toUpper (c : Char) : upperChar c.toUpper = upperChar c := by
  have hnat := toNat_toUpper c
  by_cases hascii : c.toNat < 0x80
  · have hascii' : c.toUpper.toNat < 0x80 := by
      rw [hnat]
      split <;> omega
    rw [upperChar_ascii hascii, upperChar_ascii hascii', toUpper_toUpper]
  · rw [if_neg (by omega), Char.toNat_inj] at hnat
    rw [hnat]

theorem upperAscii_map_toUpper (cs : List Char) :
    upperAscii (cs.map Char.toUpper) = upperAscii cs := by
  rw [upperAscii, List.map_map]
  exact List.map_congr_left fun c _ => toUpper_toUpper c

theorem upper_map_toUpper (cs : List Char) : upper (cs.map Char.toUpper) = upper cs := by
  rw [upper, List.flatMap_map]
  exact List.flatMap_congr fun c _ => upperChar_toUpper c

/-- The blanks beyond ASCII. -/
def wideBlanks : List Nat :=
  [0x85, 0xA0, 0x1680, 0x2000, 0x2001, 0x2002, 0x2003, 0x2004, 0x2005, 0x2006, 0x2007, 0x2008,
    0x2009, 0x200A, 0x2028, 0x2029, 0x202F, 0x205F, 0x3000]

theorem caseless_wideBlanks : ∀ n ∈ wideBlanks,
    caseRuns.find? (·.holds n) = none ∧ longCases.lookup n = none := by
  decide +kernel

theorem upperChar_of_isBlank {c : Char} (h : isBlank c = true) : upperChar c = [c] := by
  simp only [isBlank, Bool.or_eq_true, Bool.and_eq_true, decide_eq_true_eq, beq_iff_eq] at h
  by_cases hascii : c.toNat < 0x80
  · have hkept : c.toUpper = c := by
      rw [← Char.toNat_inj, toNat_toUpper, if_neg (by omega)]
    rw [upperChar_ascii hascii, hkept]
  · have hwide : c.toNat ∈ wideBlanks := by
      simp only [wideBlanks, List.mem_cons, List.not_mem_nil, or_false]
      omega
    obtain ⟨hrun, hlong⟩ := caseless_wideBlanks _ hwide
    simp only [upperChar, if_neg hascii, hrun, hlong]

theorem IsGap.upper {gap : List Char} (h : IsGap gap) : upper gap = gap := by
  induction gap with
  | nil => rfl
  | cons c gap ih =>
    rw [upper_cons, upperChar_of_isBlank (h c List.mem_cons_self),
      ih fun d hd => h d (List.mem_cons_of_mem c hd)]
    rfl

theorem ofNat_ne_plus {n : Nat} (h : 0x2B < n) : Char.ofNat n ≠ '+' := by
  by_cases hn : n.isValidChar
  · rw [Char.ofNat, dif_pos hn]
    intro heq
    exact Nat.ne_of_gt h (congrArg Char.toNat heq)
  · rw [Char.ofNat, dif_neg hn]
    decide

theorem plus_lt_upper : (∀ r ∈ caseRuns, 0x2B < r.upper) ∧
    ∀ entry ∈ longCases, ∀ n ∈ entry.2, 0x2B < n := by
  decide +kernel

theorem plus_mem_upperChar {c : Char} : '+' ∈ upperChar c ↔ c = '+' := by
  constructor
  · intro h
    unfold upperChar at h
    dsimp only at h
    split at h
    · rw [List.mem_singleton, eq_comm, toUpper_eq_iff (by decide)] at h
      exact h
    · split at h
      · next r hr =>
        have hlarge := plus_lt_upper.1 r (List.mem_of_find?_eq_some hr)
        exact absurd (List.mem_singleton.mp h).symm (ofNat_ne_plus (by omega))
      · split at h
        · next us hus =>
          obtain ⟨n, hn, heq⟩ := List.mem_map.mp h
          obtain ⟨before, after, hcases, -⟩ := List.lookup_eq_some_iff.mp hus
          have hlarge := plus_lt_upper.2 (c.toNat, us) (by simp [hcases]) n hn
          exact absurd heq (ofNat_ne_plus hlarge)
        · exact (List.mem_singleton.mp h).symm
  · rintro rfl
    decide

theorem plus_mem_upper {cs : List Char} : '+' ∈ upper cs ↔ '+' ∈ cs := by
  simp [upper, List.mem_flatMap, plus_mem_upperChar]

end Dcpu16.Text
