import Dcpu16.Proofs.Assembly.Spelling
import Dcpu16.Proofs.Text.Lower

/-! What a text stands for as a value.  Its characters say whether it is a number in one of three
bases, starts like a number and is none, is a name, or none of these; each has an answer of its
own. -/

namespace Dcpu16.Assembly

open Text

/-! ### Names -/

/-- An ASCII letter. -/
def IsLetter (c : Char) : Prop := ('a' ≤ c ∧ c ≤ 'z') ∨ ('A' ≤ c ∧ c ≤ 'Z')

/-- A decimal digit. -/
def IsDecimal (c : Char) : Prop := '0' ≤ c ∧ c ≤ '9'

/-- A letter or an underscore, and behind it letters, digits, underscores and dots. -/
inductive IsName : List Char → Prop
  | intro {c : Char} {rest : List Char} : IsLetter c ∨ c = '_' →
      (∀ d ∈ rest, IsLetter d ∨ IsDecimal d ∨ d = '_' ∨ d = '.') → IsName (c :: rest)

theorem isLetter_iff {c : Char} : IsLetter c ↔ c.isAlpha = true := by
  have hsmall : 'a' ≤ c ∧ c ≤ 'z' ↔ 97 ≤ c.toNat ∧ c.toNat ≤ 122 := Iff.rfl
  have hcapital : 'A' ≤ c ∧ c ≤ 'Z' ↔ 65 ≤ c.toNat ∧ c.toNat ≤ 90 := Iff.rfl
  rw [IsLetter, isAlpha_iff, hsmall, hcapital, or_comm]

theorem isDecimal_iff {c : Char} : IsDecimal c ↔ c.isDigit = true := by
  rw [isDigit_iff]
  exact Iff.rfl

theorem isIdentifier_iff {text : List Char} : isIdentifier text = true ↔ IsName text := by
  have hpart (d : Char) :
      isNamePart d = true ↔ IsLetter d ∨ IsDecimal d ∨ d = '_' ∨ d = '.' := by
    rw [isNamePart, Char.isAlphanum, isLetter_iff, isDecimal_iff]
    simp [or_assoc]
  cases text with
  | nil =>
    refine iff_of_false (by decide) fun h => ?_
    cases h
  | cons c rest =>
    have hstart : isNameStart c = true ↔ IsLetter c ∨ c = '_' := by
      rw [isNameStart, isLetter_iff]
      simp
    rw [isIdentifier, Bool.and_eq_true, hstart, List.all_eq_true]
    simp only [hpart]
    constructor
    · rintro ⟨hc, hrest⟩
      exact .intro hc hrest
    · rintro ⟨hc, hrest⟩
      exact ⟨hc, hrest⟩

/-! ### Numbers -/

/-- The text, which is `low` in lower case, starts as numbers do. -/
def StartsNumber (text low : List Char) : Prop :=
  ['0', 'x'] <+: low ∨ ['0', 'b'] <+: low ∨ ∃ c ∈ text.head?, IsDecimal c ∨ c = '-'

/-- The text, which is `low` in lower case, is the number in one of the three bases.  A decimal
number has no plus sign. -/
inductive Writes (text low : List Char) : Int → Prop
  | hexadecimal {digits : List Char} {n : Int} : low = '0' :: 'x' :: digits →
      DenotesSigned 16 digits n → Writes text low n
  | binary {digits : List Char} {n : Int} : low = '0' :: 'b' :: digits →
      DenotesSigned 2 digits n → Writes text low n
  | decimal {n : Nat} : ¬['0', 'x'] <+: low → ¬['0', 'b'] <+: low → Text.Denotes 10 text n →
      Writes text low n
  | negative {digits : List Char} {n : Nat} : ¬['0', 'x'] <+: low → ¬['0', 'b'] <+: low →
      text = '-' :: digits → Text.Denotes 10 digits n → Writes text low (-n)

/-- The number is one of 64 bits with its sign. -/
def FitsLong (n : Int) : Prop := -0x8000000000000000 ≤ n ∧ n < 0x8000000000000000

variable {text low : List Char}

theorem numeral?_of_mark (h : LowerCase text low) {m : Char} {digits : List Char}
    (hlow : low = '0' :: m :: digits) (hm : m = 'x' ∨ m = 'b') : ∃ ds, LowerCase ds digits ∧
      numeral? text = some (if m = 'x' then 16 else 2, ds) := by
  subst hlow
  have hplain : IsPlain m := by
    rcases hm with rfl | rfl <;> exact ⟨by decide, by decide, by decide⟩
  obtain ⟨c, rest, rfl, hc, hrest⟩ := h.eq_cons ⟨by decide, by decide, by decide⟩
  obtain ⟨d, ds, rfl, hd, hds⟩ := hrest.eq_cons hplain
  have hzero : c = '0' := by
    rw [← toUpper_eq_iff (by decide), ← toUpper_toLower, hc]
    rfl
  refine ⟨ds, hds, ?_⟩
  rcases hm with rfl | rfl
  · have hmark : d.toUpper = 'X' := by
      rw [← toUpper_toLower, hd]
      rfl
    simp [numeral?_cons_cons, hzero, hmark]
  · have hmark : d.toUpper = 'B' := by
      rw [← toUpper_toLower, hd]
      rfl
    simp [numeral?_cons_cons, hzero, hmark]

theorem numeral?_of_no_mark (h : LowerCase text low) (hx : ¬['0', 'x'] <+: low)
    (hb : ¬['0', 'b'] <+: low) : numeral? text =
      if (text.head?.any fun c => c.isDigit || c == '-') = true then some (10, text) else none := by
  match text with
  | [] => rfl
  | [c] => rw [numeral?_singleton]; rfl
  | c :: d :: ds =>
    -- A mark in either case would be a mark in lower case.
    have hmark {m : Char} (hm : ¬['0', m] <+: low) (hascii : ∀ d : Char, d.toUpper = m.toUpper →
        d.toNat < 0x80 ∧ d.toLower = m) : ¬(c = '0' ∧ d.toUpper = m.toUpper) := by
      rintro ⟨rfl, hd⟩
      obtain ⟨rest, rfl, hrest⟩ := h.cons_eq (by decide)
      obtain ⟨rest', rfl, -⟩ := hrest.cons_eq (hascii d hd).1
      apply hm
      rw [(hascii d hd).2]
      exact ⟨rest', rfl⟩
    have hx' : ¬(c = '0' ∧ d.toUpper = 'X') := by
      refine hmark hx fun d hd => ?_
      rcases toUpper_eq_letter.1.mp hd with rfl | rfl <;> exact ⟨by decide, rfl⟩
    have hb' : ¬(c = '0' ∧ d.toUpper = 'B') := by
      refine hmark hb fun d hd => ?_
      rcases toUpper_eq_letter.2.mp hd with rfl | rfl <;> exact ⟨by decide, rfl⟩
    rw [numeral?_cons_cons, if_neg hx', if_neg hb']
    rfl

theorem startsNumber_iff (h : LowerCase text low) :
    StartsNumber text low ↔ ∃ base ds, numeral? text = some (base, ds) := by
  unfold StartsNumber
  by_cases hx : ['0', 'x'] <+: low
  · obtain ⟨digits, hdigits⟩ := hx
    obtain ⟨ds, -, hnum⟩ := numeral?_of_mark h hdigits.symm (.inl rfl)
    exact ⟨fun _ => ⟨_, ds, hnum⟩, fun _ => .inl ⟨digits, hdigits⟩⟩
  by_cases hb : ['0', 'b'] <+: low
  · obtain ⟨digits, hdigits⟩ := hb
    obtain ⟨ds, -, hnum⟩ := numeral?_of_mark h hdigits.symm (.inr rfl)
    exact ⟨fun _ => ⟨_, ds, hnum⟩, fun _ => .inr (.inl ⟨digits, hdigits⟩)⟩
  have hhead : (∃ c ∈ text.head?, IsDecimal c ∨ c = '-') ↔
      (text.head?.any fun c => c.isDigit || c == '-') = true := by
    cases text.head? <;> simp [isDecimal_iff]
  rw [numeral?_of_no_mark h hx hb, hhead]
  simp [hx, hb]

theorem isDigit_of_denotes {n : Nat} (h : Text.Denotes 10 text n) :
    ∀ c ∈ text, c.isDigit = true := by
  have hall : ∀ d < 10, d.digitChar.isDigit = true ∧ d.digitChar.toUpper.isDigit = true := by
    decide
  refine h.forall_mem fun c d hd => ?_
  obtain ⟨hd, rfl | rfl⟩ := hd
  · exact (hall d hd).1
  · exact (hall d hd).2

theorem Writes.numeral?_eq (h : LowerCase text low) {n : Int} (hn : Writes text low n) :
    ∃ base ds, numeral? text = some (base, ds) ∧ readSigned? base ds = some n := by
  cases hn with
  | hexadecimal hlow hdigits =>
    obtain ⟨ds, hds, hnum⟩ := numeral?_of_mark h hlow (.inl rfl)
    exact ⟨_, ds, hnum, (readSigned?_iff (by decide)).mpr
      ((hds.denotesSigned_iff (by decide)).mp hdigits)⟩
  | binary hlow hdigits =>
    obtain ⟨ds, hds, hnum⟩ := numeral?_of_mark h hlow (.inr rfl)
    exact ⟨_, ds, hnum, (readSigned?_iff (by decide)).mpr
      ((hds.denotesSigned_iff (by decide)).mp hdigits)⟩
  | decimal hx hb hdigits =>
    have hstart : (text.head?.any fun c => c.isDigit || c == '-') = true := by
      cases text with
      | nil => exact absurd rfl hdigits.ne_nil
      | cons c rest => simp [isDigit_of_denotes hdigits c List.mem_cons_self]
    exact ⟨10, text, (numeral?_of_no_mark h hx hb).trans (if_pos hstart),
      (readSigned?_iff (by decide)).mpr (.unsigned hdigits)⟩
  | negative hx hb htext hdigits =>
    refine ⟨10, text, ?_, (readSigned?_iff (by decide)).mpr (htext ▸ .minus hdigits)⟩
    rw [numeral?_of_no_mark h hx hb, htext]
    rfl

theorem writes_of_numeral? (h : LowerCase text low) {base : Nat} {ds : List Char} {n : Int}
    (hnum : numeral? text = some (base, ds)) (hn : readSigned? base ds = some n) :
    Writes text low n := by
  by_cases hx : ['0', 'x'] <+: low
  · obtain ⟨digits, hdigits⟩ := hx
    obtain ⟨ds', hds, hnum'⟩ := numeral?_of_mark h hdigits.symm (.inl rfl)
    obtain ⟨rfl, rfl⟩ := Prod.mk.inj (Option.some.inj (hnum.symm.trans hnum'))
    exact .hexadecimal hdigits.symm ((hds.denotesSigned_iff (by decide)).mpr
      ((readSigned?_iff (by decide)).mp hn))
  by_cases hb : ['0', 'b'] <+: low
  · obtain ⟨digits, hdigits⟩ := hb
    obtain ⟨ds', hds, hnum'⟩ := numeral?_of_mark h hdigits.symm (.inr rfl)
    obtain ⟨rfl, rfl⟩ := Prod.mk.inj (Option.some.inj (hnum.symm.trans hnum'))
    exact .binary hdigits.symm ((hds.denotesSigned_iff (by decide)).mpr
      ((readSigned?_iff (by decide)).mp hn))
  rw [numeral?_of_no_mark h hx hb] at hnum
  split at hnum
  · next hstart =>
    obtain ⟨rfl, rfl⟩ := Prod.mk.inj (Option.some.inj hnum)
    cases (readSigned?_iff (by decide)).mp hn with
    | unsigned hdigits => exact .decimal hx hb hdigits
    | plus => cases hstart
    | minus hdigits => exact .negative hx hb rfl hdigits
  · cases hnum

theorem writes_iff (h : LowerCase text low) {n : Int} : Writes text low n ↔
    ∃ base ds, numeral? text = some (base, ds) ∧ readSigned? base ds = some n := by
  constructor
  · exact Writes.numeral?_eq h
  · rintro ⟨base, ds, hnum, hn⟩
    exact writes_of_numeral? h hnum hn

theorem readNumber?_eq_some {base : Nat} {ds : List Char} {n : Int} :
    readNumber? base ds = some n ↔ readSigned? base ds = some n ∧ FitsLong n := by
  simp [readNumber?, Option.filter_eq_some_iff, FitsLong]

/-! ### Values -/

/-- What a text, without blanks at its ends and `low` in lower case, stands for. -/
inductive Classified (text low : List Char) : Except Cause Value → Prop
  | number {n : Int} {w : UInt16} : Writes text low n → FitsLong n → -0x8000 ≤ n → n ≤ 0xFFFF →
      (w.toNat : Int) = n % 65536 → Classified text low (.ok (.number w))
  | outOfRange {n : Int} : Writes text low n → FitsLong n → n < -0x8000 ∨ 0xFFFF < n →
      Classified text low (.error (.valueOutOfRange n))
  | invalidNumber : StartsNumber text low → (∀ n, Writes text low n → ¬FitsLong n) →
      Classified text low (.error (.invalidNumber (String.ofList text)))
  | label : ¬StartsNumber text low → IsName text →
      Classified text low (.ok (.label (String.ofList (upper text))))
  | invalidOperand : ¬StartsNumber text low → ¬IsName text →
      Classified text low (.error (.invalidOperand (String.ofList text)))

theorem parse_of_writes (h : LowerCase (trim text) low) {n : Int} (hn : Writes (trim text) low n)
    (hfits : FitsLong n) : Value.parse text = Value.ofInt n := by
  obtain ⟨base, ds, hnum, hread⟩ := (writes_iff h).mp hn
  simp only [Value.parse, hnum, readNumber?_eq_some.mpr ⟨hread, hfits⟩]

theorem parse_of_startsNumber (h : LowerCase (trim text) low)
    (hstart : StartsNumber (trim text) low) (hnone : ∀ n, Writes (trim text) low n → ¬FitsLong n) :
    Value.parse text = .error (.invalidNumber (String.ofList (trim text))) := by
  obtain ⟨base, ds, hnum⟩ := (startsNumber_iff h).mp hstart
  have hread : readNumber? base ds = none := by
    rw [Option.eq_none_iff_forall_ne_some]
    intro n hn
    obtain ⟨hsigned, hfits⟩ := readNumber?_eq_some.mp hn
    exact hnone n ((writes_iff h).mpr ⟨base, ds, hnum, hsigned⟩) hfits
  simp only [Value.parse, hnum, hread]

theorem parse_of_not_startsNumber (h : LowerCase (trim text) low)
    (hstart : ¬StartsNumber (trim text) low) : Value.parse text =
      if isIdentifier (trim text) then .ok (.label (labelKey (trim text)))
      else .error (.invalidOperand (String.ofList (trim text))) := by
  have hnum : numeral? (trim text) = none := by
    rw [Option.eq_none_iff_forall_ne_some]
    rintro ⟨base, ds⟩ hnum
    exact hstart ((startsNumber_iff h).mpr ⟨base, ds, hnum⟩)
  simp only [Value.parse, hnum]

theorem toNat_ofInt (n : Int) : ((UInt16.ofNat (n % 65536).toNat).toNat : Int) = n % 65536 := by
  have hlt : (n % 65536).toNat < UInt16.size := by simp only [UInt16.size]; omega
  rw [UInt16.toNat_ofNat_of_lt' hlt, Int.toNat_of_nonneg (by omega)]

theorem Classified.parse_eq (h : LowerCase (trim text) low) {r : Except Cause Value}
    (hr : Classified (trim text) low r) : Value.parse text = r := by
  cases hr with
  | @number n w hn hfits hlow hhigh hw =>
    have hword : UInt16.ofNat (n % 65536).toNat = w := by
      rw [← UInt16.toNat_inj, ← Int.natCast_inj, toNat_ofInt, hw]
    rw [parse_of_writes h hn hfits, Value.ofInt, if_pos ⟨hlow, hhigh⟩, hword]
  | outOfRange hn hfits hrange =>
    rw [parse_of_writes h hn hfits, Value.ofInt, if_neg (by omega)]
  | invalidNumber hstart hnone => exact parse_of_startsNumber h hstart hnone
  | label hstart hname =>
    have hid := isIdentifier_iff.mpr hname
    rw [parse_of_not_startsNumber h hstart, if_pos hid, upper_of_isIdentifier hid]
    rfl
  | invalidOperand hstart hname =>
    rw [parse_of_not_startsNumber h hstart, if_neg (mt isIdentifier_iff.mp hname)]

theorem exists_classified (text low : List Char) : ∃ r, Classified text low r := by
  by_cases hnumber : ∃ n, Writes text low n ∧ FitsLong n
  · obtain ⟨n, hn, hfits⟩ := hnumber
    by_cases hrange : -0x8000 ≤ n ∧ n ≤ 0xFFFF
    · exact ⟨_, .number hn hfits hrange.1 hrange.2 (toNat_ofInt n)⟩
    · exact ⟨_, .outOfRange hn hfits (by omega)⟩
  by_cases hstart : StartsNumber text low
  · exact ⟨_, .invalidNumber hstart fun n hn hfits => hnumber ⟨n, hn, hfits⟩⟩
  by_cases hname : IsName text
  · exact ⟨_, .label hstart hname⟩
  · exact ⟨_, .invalidOperand hstart hname⟩

theorem not_startsNumber_of_isName (h : LowerCase text low) (hname : IsName text) :
    ¬StartsNumber text low := by
  rw [startsNumber_iff h, numeral?_of_isIdentifier (isIdentifier_iff.mpr hname)]
  rintro ⟨_, _, ⟨⟩⟩

theorem Writes.unique (h : LowerCase text low) {n m : Int} (hn : Writes text low n)
    (hm : Writes text low m) : n = m := by
  obtain ⟨base, ds, hnum, hread⟩ := (writes_iff h).mp hn
  obtain ⟨base', ds', hnum', hread'⟩ := (writes_iff h).mp hm
  obtain ⟨rfl, rfl⟩ := Prod.mk.inj (Option.some.inj (hnum.symm.trans hnum'))
  exact Option.some.inj (hread.symm.trans hread')

/-- Each text stands for exactly what its form without blanks at the ends, and the lower case of
this form, say.  None starts as numbers do and is a name, and none is two numbers; the word of a
number that is accepted is the number as written, modulo 65536. -/
theorem parse_classifies (text : List Char) : (∃ low, LowerCase (trim text) low) ∧
    ∀ low, LowerCase (trim text) low →
      (∀ r, Value.parse text = r ↔ Classified (trim text) low r) ∧
      ¬(StartsNumber (trim text) low ∧ IsName (trim text)) ∧
      (∀ n m, Writes (trim text) low n → Writes (trim text) low m → n = m) ∧
      ∀ w, Value.parse text = .ok (.number w) →
        ∃ n, Writes (trim text) low n ∧ (w.toNat : Int) = n % 65536 := by
  refine ⟨exists_lowerCase _, fun low h => ?_⟩
  have hclass (r : Except Cause Value) : Value.parse text = r ↔ Classified (trim text) low r := by
    constructor
    · rintro rfl
      obtain ⟨r, hr⟩ := exists_classified (trim text) low
      rwa [hr.parse_eq h]
    · exact Classified.parse_eq h
  refine ⟨hclass, fun hboth => not_startsNumber_of_isName h hboth.2 hboth.1,
    fun n m hn hm => hn.unique h hm, fun w hw => ?_⟩
  cases (hclass _).mp hw with
  | number hn _ _ _ hword => exact ⟨_, hn, hword⟩

/-- A sign may stand behind the mark of a base, and the least number is accepted. -/
theorem parse_signed_hexadecimal :
    LowerCase (trim " 0X-8000\t".toList) ['0', 'x', '-', '8', '0', '0', '0'] ∧
      Value.parse " 0X-8000\t".toList = .ok (.number 0x8000) := by
  have htrim : trim " 0X-8000\t".toList = ['0', 'X', '-', '8', '0', '0', '0'] := by decide
  have hlow : LowerCase (trim " 0X-8000\t".toList) ['0', 'x', '-', '8', '0', '0', '0'] := by
    rw [htrim]
    repeat refine .ascii (by decide) ?_
    exact .nil
  have hdigits : DenotesSigned 16 ['-', '8', '0', '0', '0'] (-0x8000) :=
    (readSigned?_iff (by decide)).mp (by decide)
  refine ⟨hlow, (((parse_classifies _).2 _ hlow).1 _).mpr ?_⟩
  exact .number (.hexadecimal rfl hdigits) ⟨by decide, by decide⟩ (by decide) (by decide)
    (by decide)

end Dcpu16.Assembly
