import Dcpu16.Proofs.Assembly.Opening
import Dcpu16.Proofs.Text.Case

/-! Spellings of terms, operands and statements that are read alike: with letters in the other
case, with blanks in brackets, and with the sides of a plus sign exchanged. -/

namespace Dcpu16.Assembly

open Text

/-! ### Terms -/

theorem readNumber?_toUpper (base : Nat) (cs : List Char) :
    readNumber? base (cs.map Char.toUpper) = readNumber? base cs := by
  rw [readNumber?, readSigned?_toUpper, readNumber?]

theorem toUpper_eq_letter {c : Char} :
    (c.toUpper = 'X' ↔ c = 'x' ∨ c = 'X') ∧ (c.toUpper = 'B' ↔ c = 'b' ∨ c = 'B') := by
  have hnat := toNat_toUpper c
  rw [← Char.toNat_inj, ← Char.toNat_inj, ← Char.toNat_inj, ← Char.toNat_inj, ← Char.toNat_inj,
    ← Char.toNat_inj]
  simp only [Char.reduceToNat]
  split at hnat <;> omega

theorem numeral?_cons_cons (c d : Char) (ds : List Char) : numeral? (c :: d :: ds) =
    if c = '0' ∧ d.toUpper = 'X' then some (16, ds)
    else if c = '0' ∧ d.toUpper = 'B' then some (2, ds)
    else if c.isDigit || c == '-' then some (10, c :: d :: ds) else none := by
  simp only [toUpper_eq_letter.1, toUpper_eq_letter.2]
  unfold numeral?
  split
  · next heq => simp_all
  · next heq => simp_all
  · next heq => simp_all
  · next heq => simp_all
  · next heq =>
    obtain ⟨rfl, rfl⟩ := List.cons.inj heq
    have hx : ¬(c = '0' ∧ (d = 'x' ∨ d = 'X')) := by simp_all
    have hb : ¬(c = '0' ∧ (d = 'b' ∨ d = 'B')) := by simp_all
    rw [if_neg hx, if_neg hb]
  · next heq => cases heq

theorem numeral?_singleton (c : Char) :
    numeral? [c] = if c.isDigit || c == '-' then some (10, [c]) else none := by
  unfold numeral?
  split <;> simp_all

theorem numeral?_toUpper (cs : List Char) : numeral? (cs.map Char.toUpper) =
    (numeral? cs).map fun (base, ds) => (base, ds.map Char.toUpper) := by
  have hstart (c : Char) : (c.toUpper.isDigit || c.toUpper == '-') = (c.isDigit || c == '-') := by
    rw [isDigit_toUpper, toUpper_beq (by decide)]
  have hzero (c : Char) : c.toUpper = '0' ↔ c = '0' := toUpper_eq_iff (by decide)
  match cs with
  | [] => rfl
  | [c] =>
    rw [List.map_singleton, numeral?_singleton, numeral?_singleton, hstart]
    split <;> rfl
  | c :: d :: ds =>
    simp only [List.map_cons, numeral?_cons_cons, toUpper_toUpper, hstart, hzero]
    split
    · rfl
    · split
      · rfl
      · split <;> rfl

theorem isIdentifier_toUpper (cs : List Char) :
    isIdentifier (cs.map Char.toUpper) = isIdentifier cs := by
  have hstart (c : Char) : isNameStart c.toUpper = isNameStart c := by
    rw [isNameStart, isAlpha_toUpper, toUpper_beq (by decide), isNameStart]
  have hpart (c : Char) : isNamePart c.toUpper = isNamePart c := by
    rw [isNamePart, Char.isAlphanum, isAlpha_toUpper, isDigit_toUpper, toUpper_beq (by decide),
      toUpper_beq (by decide), isNamePart, Char.isAlphanum]
  cases cs with
  | nil => rfl
  | cons c cs =>
    rw [List.map_cons, isIdentifier, isIdentifier, hstart, List.all_map]
    congr 2
    exact funext hpart

theorem labelKey_toUpper (cs : List Char) : labelKey (cs.map Char.toUpper) = labelKey cs := by
  rw [labelKey, upperAscii_map_toUpper, labelKey]

theorem isNamePart_iff {c : Char} : isNamePart c = true ↔ (65 ≤ c.toNat ∧ c.toNat ≤ 90) ∨
    (97 ≤ c.toNat ∧ c.toNat ≤ 122) ∨ (48 ≤ c.toNat ∧ c.toNat ≤ 57) ∨ c.toNat = 95 ∨
    c.toNat = 46 := by
  have hline : c = '_' ↔ c.toNat = 95 := Char.toNat_inj.symm
  have hdot : c = '.' ↔ c.toNat = 46 := Char.toNat_inj.symm
  rw [isNamePart, Char.isAlphanum, Bool.or_eq_true, Bool.or_eq_true, Bool.or_eq_true, beq_iff_eq,
    beq_iff_eq, hline, hdot, isAlpha_iff, isDigit_iff]
  omega

theorem isNamePart_of_mem {name : List Char} {c : Char} (h : isIdentifier name = true)
    (hc : c ∈ name) : isNamePart c = true := by
  cases name with
  | nil => cases hc
  | cons d name =>
    rw [isIdentifier, Bool.and_eq_true, List.all_eq_true] at h
    rcases List.mem_cons.mp hc with rfl | hc
    · have hstart := h.1
      rw [isNameStart, Bool.or_eq_true] at hstart
      rw [isNamePart, Char.isAlphanum]
      rcases hstart with halpha | hline
      · simp [halpha]
      · simp [hline]
    · exact h.2 c hc

theorem not_mem_of_isIdentifier {name : List Char} {c : Char} (h : isIdentifier name = true)
    (hc : isNamePart c = false) : c ∉ name := by
  intro hmem
  rw [isNamePart_of_mem h hmem] at hc
  cases hc

theorem isSolid_of_isIdentifier {name : List Char} (h : isIdentifier name = true) :
    IsSolid name := by
  intro c hc
  have hpart := isNamePart_iff.mp (isNamePart_of_mem h hc)
  rw [Bool.eq_false_iff]
  intro hblank
  simp only [isBlank, Bool.or_eq_true, Bool.and_eq_true, decide_eq_true_eq, beq_iff_eq] at hblank
  omega

theorem upper_of_isIdentifier {name : List Char} (h : isIdentifier name = true) :
    upper name = name.map Char.toUpper := by
  apply upper_ascii
  intro c hc
  have hpart := isNamePart_iff.mp (isNamePart_of_mem h hc)
  omega

/-- No text is both a number and a name. -/
theorem numeral?_of_isIdentifier {name : List Char} (h : isIdentifier name = true) :
    numeral? name = none := by
  cases name with
  | nil => rfl
  | cons c name =>
    rw [isIdentifier, Bool.and_eq_true, isNameStart, Bool.or_eq_true, isAlpha_iff,
      beq_iff_eq] at h
    have hstart : (65 ≤ c.toNat ∧ c.toNat ≤ 90) ∨ (97 ≤ c.toNat ∧ c.toNat ≤ 122) ∨
        c.toNat = 95 := by
      rcases h.1 with (h | h) | rfl
      · exact .inl h
      · exact .inr (.inl h)
      · exact .inr (.inr rfl)
    have hzero : c ≠ '0' := by
      rintro rfl
      revert hstart
      decide
    have hnumber : (c.isDigit || c == '-') = false := by
      rw [Bool.or_eq_false_iff, Bool.eq_false_iff, ne_eq, isDigit_iff, beq_eq_false_iff_ne]
      constructor
      · omega
      · rintro rfl
        revert hstart
        decide
    cases name with
    | nil => rw [numeral?_singleton, hnumber, if_neg (by decide)]
    | cons d name => rw [numeral?_cons_cons, if_neg (by simp [hzero]), if_neg (by simp [hzero]),
        hnumber, if_neg (by decide)]

theorem Term.Reads.of_trim_eq {cs ds : List Char} {t : Term} (heq : trim cs = trim ds)
    (h : t.Reads cs) : t.Reads ds := by
  cases h with
  | number hnumeral hnumber hlow hhigh =>
    rw [heq] at hnumeral
    exact .number hnumeral hnumber hlow hhigh
  | label hnumeral hid =>
    rw [heq] at hnumeral hid ⊢
    exact .label hnumeral hid

theorem Term.reads_toUpper {cs : List Char} {t : Term} :
    Term.Reads (cs.map Char.toUpper) t ↔ Term.Reads cs t := by
  constructor
  · intro h
    cases h with
    | number hnumeral hnumber hlow hhigh =>
      rw [trim_map_toUpper, numeral?_toUpper] at hnumeral
      obtain ⟨⟨base, ds⟩, hcs, heq⟩ := Option.map_eq_some_iff.mp hnumeral
      obtain ⟨rfl, rfl⟩ := Prod.mk.inj heq
      rw [readNumber?_toUpper] at hnumber
      exact .number hcs hnumber hlow hhigh
    | label hnumeral hid =>
      rw [trim_map_toUpper, numeral?_toUpper, Option.map_eq_none_iff] at hnumeral
      rw [trim_map_toUpper, isIdentifier_toUpper] at hid
      rw [trim_map_toUpper, labelKey_toUpper]
      exact .label hnumeral hid
  · intro h
    cases h with
    | number hnumeral hnumber hlow hhigh =>
      rw [← readNumber?_toUpper] at hnumber
      refine .number ?_ hnumber hlow hhigh
      rw [trim_map_toUpper, numeral?_toUpper, hnumeral]
      rfl
    | label hnumeral hid =>
      rw [← labelKey_toUpper, ← trim_map_toUpper]
      apply Term.Reads.label
      · rw [trim_map_toUpper, numeral?_toUpper, hnumeral]
        rfl
      · rwa [trim_map_toUpper, isIdentifier_toUpper]

theorem ofName?_of_trim_eq {cs ds : List Char} (heq : trim cs = trim ds) :
    Register.ofName? cs = Register.ofName? ds := by
  rw [Register.ofName?, heq, Register.ofName?]

theorem ofName?_eq_some {cs : List Char} {r : Register} :
    Register.ofName? cs = some r ↔ (trim cs).map Char.toUpper = r.name.toList := by
  unfold Register.ofName?
  constructor
  · intro h
    split at h <;> cases h <;> assumption
  · intro h
    rw [h]
    cases r <;> rfl

theorem plus_not_mem_of_ofName? {cs : List Char} {r : Register}
    (h : Register.ofName? cs = some r) : '+' ∉ cs := by
  intro hmem
  have hname : '+' ∈ r.name.toList := by
    rw [← ofName?_eq_some.mp h, mem_map_toUpper (by decide)]
    exact mem_trim (by decide) hmem
  revert hname
  cases r <;> decide

/-! ### Operands -/

/-- The texts before and after a plus sign name a register and stand for a term. -/
inductive Form.Sum (left right : List Char) : Form → Prop
  | after {r : Register} {t : Term} : Register.ofName? left = some r →
      Register.ofName? right = none → t.Reads right → Sum left right (.offset t r)
  | before {r : Register} {t : Term} : Register.ofName? left = none →
      Register.ofName? right = some r → t.Reads left → Sum left right (.offset t r)

theorem Form.Sum.swap {left right : List Char} {f : Form} (h : Sum left right f) :
    Sum right left f := by
  cases h with
  | after hleft hright ht => exact .before hright hleft ht
  | before hleft hright ht => exact .after hright hleft ht

theorem Form.Sum.of_trim_eq {left right left' right' : List Char} {f : Form}
    (hleft : trim left = trim left') (hright : trim right = trim right') (h : Sum left right f) :
    Sum left' right' f := by
  cases h with
  | after hl hr ht =>
    rw [ofName?_of_trim_eq hleft] at hl
    rw [ofName?_of_trim_eq hright] at hr
    exact .after hl hr (ht.of_trim_eq hright)
  | before hl hr ht =>
    rw [ofName?_of_trim_eq hleft] at hl
    rw [ofName?_of_trim_eq hright] at hr
    exact .before hl hr (ht.of_trim_eq hleft)

theorem Form.addresses_plus {left right : List Char} {f : Form} (hleft : '+' ∉ left) :
    Addresses (left ++ '+' :: right) f ↔ Sum left right f := by
  have hmem : '+' ∈ left ++ '+' :: right := by simp
  constructor
  · intro h
    cases h with
    | offsetAfter heq hfirst hl hr ht =>
      obtain ⟨rfl, rfl⟩ := plus_inj hleft hfirst heq
      exact .after hl hr ht
    | offsetBefore heq hfirst hl hr ht =>
      obtain ⟨rfl, rfl⟩ := plus_inj hleft hfirst heq
      exact .before hl hr ht
    | indirect hfree => exact absurd hmem hfree
    | cell hfree => exact absurd hmem hfree
  · intro h
    cases h with
    | after hl hr ht => exact .offsetAfter rfl hleft hl hr ht
    | before hl hr ht => exact .offsetBefore rfl hleft hl hr ht

theorem Form.Addresses.of_trim_eq {inner inner' : List Char} {f : Form} (hfree : '+' ∉ inner)
    (hfree' : '+' ∉ inner') (heq : trim inner = trim inner') (h : Addresses inner f) :
    Addresses inner' f := by
  cases h with
  | offsetAfter hplus | offsetBefore hplus => exact absurd (by simp [hplus]) hfree
  | indirect _ hr =>
    rw [ofName?_of_trim_eq heq] at hr
    exact .indirect hfree' hr
  | cell _ hr ht =>
    rw [ofName?_of_trim_eq heq] at hr
    exact .cell hfree' hr (ht.of_trim_eq heq)

/-- Blanks inside brackets do not count. -/
theorem Form.addresses_gap {gap gap' inner : List Char} {f : Form} (hgap : IsGap gap)
    (hgap' : IsGap gap') : Addresses (gap ++ inner ++ gap') f ↔ Addresses inner f := by
  by_cases hmem : '+' ∈ inner
  · obtain ⟨left, right, rfl, hleft⟩ := List.eq_append_cons_of_mem hmem
    have hsplit : gap ++ (left ++ '+' :: right) ++ gap' =
        gap ++ left ++ '+' :: (right ++ gap') := by simp
    have hleft' : '+' ∉ gap ++ left := by
      rw [List.mem_append, not_or]
      exact ⟨hgap.not_mem (by decide), hleft⟩
    rw [hsplit, addresses_plus hleft', addresses_plus hleft]
    exact ⟨.of_trim_eq (trim_gap_append hgap left) (trim_append_gap hgap' right),
      .of_trim_eq (trim_gap_append hgap left).symm (trim_append_gap hgap' right).symm⟩
  · have hfree : '+' ∉ gap ++ inner ++ gap' := not_mem_around (by decide) hgap hgap' hmem
    have htrim : trim (gap ++ inner ++ gap') = trim inner := by
      rw [trim_append_gap hgap', trim_gap_append hgap]
    exact ⟨.of_trim_eq hfree hmem htrim, .of_trim_eq hmem hfree htrim.symm⟩

/-- Blanks beside a plus sign do not count, unless a register and another plus sign stand before
it: then it is the sign of a number. -/
theorem Form.addresses_plus_gap {gap gap' left right : List Char} {f : Form} (hgap : IsGap gap)
    (hgap' : IsGap gap')
    (hsign : ∀ x y, left = x ++ '+' :: y → '+' ∉ x → Register.ofName? x = none) :
    Addresses (left ++ gap ++ '+' :: (gap' ++ right)) f ↔ Addresses (left ++ '+' :: right) f := by
  have hplus : '+' ∉ gap := hgap.not_mem (by decide)
  by_cases hmem : '+' ∈ left
  · obtain ⟨x, y, rfl, hx⟩ := List.eq_append_cons_of_mem hmem
    have hx' := hsign x y rfl hx
    -- With two plus signs the second text is no register, and the first is none either.
    have hnone (rest : List Char) (hrest : '+' ∈ rest) : ¬Sum x rest f := by
      intro h
      cases h with
      | after hl => cases hx'.symm.trans hl
      | before _ hr =>
        exact plus_not_mem_of_ofName? hr hrest
    rw [List.append_assoc, List.append_assoc, List.cons_append, addresses_plus hx,
      List.append_assoc, List.cons_append, addresses_plus hx]
    exact iff_of_false (hnone _ (by simp)) (hnone _ (by simp))
  · have hleft : '+' ∉ left ++ gap := by
      rw [List.mem_append, not_or]
      exact ⟨hmem, hplus⟩
    rw [addresses_plus hleft, addresses_plus hmem]
    exact ⟨.of_trim_eq (trim_append_gap hgap left) (trim_gap_append hgap' right),
      .of_trim_eq (trim_append_gap hgap left).symm (trim_gap_append hgap' right).symm⟩

theorem Form.reads_bracketed {inner : List Char} {f : Form} :
    Form.Reads ('[' :: inner ++ [']']) f ↔ Addresses (upper inner) f := by
  have hupper := upper_bracketed inner
  constructor
  · intro h
    cases h with
    | address heq haddresses =>
      rw [hupper] at heq
      have hinner := Option.some.inj
        ((bracketed?_eq_some.mpr rfl).symm.trans (bracketed?_eq_some.mpr heq))
      exact hinner ▸ haddresses
    | named hnamed =>
      have hopen := (Form.argument_of_named hnamed).2
      rw [String.toList_ofList, hupper] at hopen
      exact absurd rfl (bracketed?_eq_none.mp hopen _)
    | register hbare =>
      exact absurd hupper (hbare.1 _)
    | term hbare =>
      exact absurd hupper (hbare.1 _)
  · exact .address hupper

theorem Form.Reads.of_upper_eq {cs ds : List Char} {f : Form} (heq : upper cs = upper ds)
    (h : Form.Reads cs f) : Form.Reads ds f := by
  cases h with
  | address hopen haddresses => exact .address (heq ▸ hopen) haddresses
  | named hnamed => exact .named (heq ▸ hnamed)
  | register hbare hr =>
    rw [heq] at hbare hr
    exact .register hbare hr
  | term hbare hr ht =>
    rw [heq] at hbare hr ht
    exact .term hbare hr ht

/-! ### Statements -/

/-- Both texts are empty, or neither is, and they are read as the same operands. -/
structure SameOperand (p q : List Char) : Prop where
  empty : p = [] ↔ q = []
  reads (f : Form) : Form.Reads p f ↔ Form.Reads q f

/-- The texts are read as the same items. -/
def SameItem (p q : List Char) : Prop := ∀ i, Item.Reads p i ↔ Item.Reads q i

/-- The statements start with the same word and have operands or items that are read alike. -/
structure Clause.Similar (word rest word' rest' : List Char) : Prop where
  words : upper word = upper word'
  empty : rest = [] ↔ rest' = []
  operands : ¬OpensData word → List.Forall₂ SameOperand (pieces ',' rest) (pieces ',' rest')
  items : OpensData word →
    List.Forall₂ SameItem (piecesOutside ',' rest) (piecesOutside ',' rest')

theorem SameOperand.refl (p : List Char) : SameOperand p p := ⟨.rfl, fun _ => .rfl⟩

theorem SameOperand.symm {p q : List Char} (h : SameOperand p q) : SameOperand q p :=
  ⟨h.empty.symm, fun f => (h.reads f).symm⟩

theorem forall₂_refl {α : Type} {R : α → α → Prop} (h : ∀ x, R x x) (xs : List α) :
    List.Forall₂ R xs xs :=
  List.forall₂_same.mpr fun x _ => h x

theorem Clause.Similar.symm {word rest word' rest' : List Char}
    (h : Similar word rest word' rest') : Similar word' rest' word rest := by
  have hdata : OpensData word ↔ OpensData word' := by
    rw [OpensData, h.words, OpensData]
  refine ⟨h.words.symm, h.empty.symm, fun hword => ?_, fun hword => ?_⟩
  · exact (h.operands (mt hdata.mp hword)).flip.imp fun p q hpq => hpq.symm
  · exact (h.items (hdata.mpr hword)).flip.imp fun p q hpq i => (hpq i).symm

theorem Clause.Similar.parses {word rest word' rest' : List Char} {c : Clause}
    (h : Similar word rest word' rest') (hc : Parses word rest c) : Parses word' rest' c := by
  cases hc with
  | @instruction left right op a b hop hpieces hleft hright ha hb =>
    have hcode : ¬OpensData word := by
      intro hword
      cases hword.not_mnemonic.symm.trans hop
    have hall := h.operands hcode
    rw [hpieces, List.forall₂_cons_left_iff] at hall
    obtain ⟨left', rest', hl, hall, hpieces'⟩ := hall
    rw [List.forall₂_cons_left_iff] at hall
    obtain ⟨right', rest', hr, hall, rfl⟩ := hall
    obtain rfl := List.forall₂_nil_left_iff.mp hall
    exact .instruction (h.words ▸ hop) hpieces' (mt hl.empty.mpr hleft) (mt hr.empty.mpr hright)
      ((hl.reads a).mp ha) ((hr.reads b).mp hb)
  | data hword hrest hitems =>
    refine .data ?_ (mt h.empty.mpr hrest) ?_
    · rwa [OpensData, ← h.words]
    · have hsame := (h.items hword).imp fun p q hpq i => (hpq i).mp
      exact forall₂_of_forall₂_imp hsame hitems

end Dcpu16.Assembly
