import Dcpu16.Assembly.Operand
import Dcpu16.Proofs.Except

/-! Operands as they are written, before anything is encoded, with a grammar for their texts.  The
reader of operands accepts a text exactly when the grammar has a reading of it. -/

namespace Dcpu16.Assembly

/-! ### Numbers and labels -/

/-- A number or the key of a label. -/
inductive Term where
  | number (n : Int)
  | label (key : String)
  deriving DecidableEq, Repr

/-- The text stands for the term. -/
inductive Term.Reads (text : List Char) : Term → Prop
  | number {base : Nat} {ds : List Char} {n : Int} :
      numeral? (Text.trim text) = some (base, ds) → readNumber? base ds = some n →
      -0x8000 ≤ n → n ≤ 0xFFFF → Reads text (.number n)
  | label : numeral? (Text.trim text) = none → isIdentifier (Text.trim text) = true →
      Reads text (.label (labelKey (Text.trim text)))

/-- The word of a number, modulo 65536, or the label. -/
def Term.value : Term → Value
  | number n => .number (.ofNat (n % 65536).toNat)
  | label key => .label key

theorem Value.ofInt_eq_ok {n : Int} {v : Value} :
    Value.ofInt n = .ok v ↔ (-0x8000 ≤ n ∧ n ≤ 0xFFFF) ∧ (Term.number n).value = v := by
  unfold Value.ofInt
  split
  · next h => exact ⟨fun hv => ⟨h, Except.ok.inj hv⟩, fun hv => congrArg Except.ok hv.2⟩
  · next h => exact ⟨nofun, fun hv => absurd hv.1 h⟩

theorem Value.parse_eq_ok {text : List Char} {v : Value} :
    Value.parse text = .ok v ↔ ∃ t, Term.Reads text t ∧ t.value = v := by
  unfold Value.parse
  constructor
  · intro h
    cases hnum : numeral? (Text.trim text) with
    | none =>
      simp only [hnum] at h
      split at h
      · next hid => exact ⟨.label _, .label hnum hid, Except.ok.inj h⟩
      · cases h
    | some numeral =>
      obtain ⟨base, ds⟩ := numeral
      simp only [hnum] at h
      cases hread : readNumber? base ds with
      | none => simp [hread] at h
      | some n =>
        simp only [hread] at h
        obtain ⟨⟨hlow, hhigh⟩, hv⟩ := Value.ofInt_eq_ok.mp h
        exact ⟨.number n, .number hnum hread hlow hhigh, hv⟩
  · rintro ⟨t, ht, rfl⟩
    cases ht with
    | number hnum hread hlow hhigh =>
      simp only [hnum, hread]
      exact Value.ofInt_eq_ok.mpr ⟨⟨hlow, hhigh⟩, rfl⟩
    | label hnum hid =>
      simp only [hnum, if_pos hid]
      rfl

/-! ### Operands -/

/-- An operand, as written. -/
inductive Form where
  | register (r : Register)
  /-- A register in square brackets. -/
  | indirect (r : Register)
  /-- A register plus a term in square brackets, in either order. -/
  | offset (t : Term) (r : Register)
  /-- A term in square brackets. -/
  | cell (t : Term)
  | term (t : Term)
  | pop | peek | push
  | sp | pc | overflow
  deriving DecidableEq, Repr

/-- The operands that have names of their own. -/
def Form.named : List (String × Form) :=
  [("POP", pop), ("PEEK", peek), ("PUSH", push), ("SP", sp), ("PC", pc), ("O", overflow)]

/-- The text is neither in square brackets nor the name of an operand. -/
def Form.Bare (text : List Char) : Prop :=
  (∀ inner, text ≠ '[' :: inner ++ [']']) ∧ ∀ f, (String.ofList text, f) ∉ named

/-- The text between square brackets stands for the operand. -/
inductive Form.Addresses (inner : List Char) : Form → Prop
  | offsetAfter {left right : List Char} {r : Register} {t : Term} :
      inner = left ++ '+' :: right → '+' ∉ left → Register.ofName? left = some r →
      Register.ofName? right = none → t.Reads right → Addresses inner (.offset t r)
  | offsetBefore {left right : List Char} {r : Register} {t : Term} :
      inner = left ++ '+' :: right → '+' ∉ left → Register.ofName? left = none →
      Register.ofName? right = some r → t.Reads left → Addresses inner (.offset t r)
  | indirect {r : Register} : '+' ∉ inner → Register.ofName? inner = some r →
      Addresses inner (.indirect r)
  | cell {t : Term} : '+' ∉ inner → Register.ofName? inner = none → t.Reads inner →
      Addresses inner (.cell t)

/-- The text, in either case, stands for the operand. -/
inductive Form.Reads (text : List Char) : Form → Prop
  | address {inner : List Char} {f : Form} : Text.upper text = '[' :: inner ++ [']'] →
      f.Addresses inner → Reads text f
  | named {f : Form} : (String.ofList (Text.upper text), f) ∈ Form.named → Reads text f
  | register {r : Register} : Bare (Text.upper text) →
      Register.ofName? (Text.upper text) = some r → Reads text (.register r)
  | term {t : Term} : Bare (Text.upper text) →
      Register.ofName? (Text.upper text) = none → t.Reads (Text.upper text) → Reads text (.term t)

theorem upper_bracketed (cs : List Char) :
    Text.upper ('[' :: cs ++ [']']) = '[' :: Text.upper cs ++ [']'] := by
  rw [Text.upper_append]
  rfl

/-- A value code can hold the term: it is a number below 32, modulo 65536. -/
def Term.Embeds : Term → Prop
  | number n => n % 65536 ≤ 0x1F
  | label _ => False

instance : DecidablePred Term.Embeds
  | .number n => inferInstanceAs (Decidable (n % 65536 ≤ 0x1F))
  | .label _ => inferInstanceAs (Decidable False)

/-- The operand that a form is encoded as. -/
def Form.operand : Form → Operand
  | register r => .register r
  | indirect r => .indirect r
  | offset _ r => .offset r
  | cell _ => .nextCell
  | term (.number n) =>
    if (Term.number n).Embeds then .literal (.ofNat (n % 65536).toNat) else .next
  | term (.label _) => .next
  | pop => .pop
  | peek => .peek
  | push => .push
  | sp => .sp
  | pc => .pc
  | overflow => .overflow

/-- The term of the form's extension word, if it has one. -/
def Form.extension? : Form → Option Term
  | offset t _ | cell t => some t
  | term t => if t.Embeds then none else some t
  | _ => none

/-- The argument that a form is read as. -/
def Form.argument (f : Form) : Argument := ⟨f.operand, f.extension?.map Term.value⟩

theorem dropLast_eq_some {cs inner : List Char} {c : Char} :
    (if cs.getLast? = some c then some cs.dropLast else none) = some inner ↔ cs = inner ++ [c] := by
  constructor
  · intro h
    split at h
    · next hlast =>
      obtain ⟨ds, rfl⟩ := List.getLast?_eq_some_iff.mp hlast
      simpa using h
    · cases h
  · rintro rfl
    simp

theorem bracketed?_eq_some {cs inner : List Char} :
    bracketed? cs = some inner ↔ cs = '[' :: inner ++ [']'] := by
  unfold bracketed?
  split
  · rw [dropLast_eq_some]
    simp
  · next h =>
    simp only [reduceCtorEq, false_iff]
    rintro rfl
    exact h _ rfl

theorem bracketed?_eq_none {cs : List Char} :
    bracketed? cs = none ↔ ∀ inner, cs ≠ '[' :: inner ++ [']'] := by
  rw [Option.eq_none_iff_forall_ne_some]
  exact forall_congr' fun inner => not_congr bracketed?_eq_some

theorem takeWhile_before_plus {left right : List Char} (h : '+' ∉ left) :
    (left ++ '+' :: right).takeWhile (· != '+') = left := by
  rw [List.takeWhile_append_of_pos fun c hc => by
    rw [bne_iff_ne]
    rintro rfl
    exact h hc]
  simp

theorem splitPlus?_eq_some {cs left right : List Char} :
    splitPlus? cs = some (left, right) ↔ cs = left ++ '+' :: right ∧ '+' ∉ left := by
  unfold splitPlus?
  constructor
  · intro h
    split at h
    · next hmem =>
      obtain ⟨before, after, rfl, hbefore⟩ :=
        List.eq_append_cons_of_mem (List.contains_iff_mem.mp hmem)
      simp only [takeWhile_before_plus hbefore, List.drop_append, Nat.add_sub_cancel_left,
        Option.some.injEq, Prod.mk.injEq] at h
      obtain ⟨rfl, rfl⟩ := h
      simp [hbefore]
    · cases h
  · rintro ⟨rfl, h⟩
    simp [takeWhile_before_plus h]

theorem splitPlus?_eq_none {cs : List Char} : splitPlus? cs = none ↔ '+' ∉ cs := by
  simp [splitPlus?]

theorem keyword?_eq_some {name : String} {x : Operand} :
    keyword? name = some x ↔ ∃ f, (name, f) ∈ Form.named ∧ f.operand = x := by
  unfold keyword? Form.named
  split <;> simp_all [Form.operand]

theorem keyword?_eq_none {name : String} :
    keyword? name = none ↔ ∀ f, (name, f) ∉ Form.named := by
  rw [Option.eq_none_iff_forall_ne_some]
  constructor
  · intro h f hf
    exact h _ (keyword?_eq_some.mpr ⟨f, hf, rfl⟩)
  · intro h x hx
    obtain ⟨f, hf, -⟩ := keyword?_eq_some.mp hx
    exact h f hf

theorem Form.bare_iff {text : List Char} :
    Bare text ↔ bracketed? text = none ∧ keyword? (String.ofList text) = none := by
  rw [Bare, bracketed?_eq_none, keyword?_eq_none]

/-- Operands with names of their own have no extension word, and their names no brackets. -/
theorem Form.argument_of_named {name : String} {f : Form} (h : (name, f) ∈ named) :
    f.argument = { operand := f.operand } ∧ bracketed? name.toList = none := by
  simp only [named, List.mem_cons, Prod.mk.injEq, List.not_mem_nil, or_false] at h
  rcases h with ⟨rfl, rfl⟩ | ⟨rfl, rfl⟩ | ⟨rfl, rfl⟩ | ⟨rfl, rfl⟩ | ⟨rfl, rfl⟩ | ⟨rfl, rfl⟩ <;>
    exact ⟨rfl, rfl⟩

theorem Argument.ofValue_value (t : Term) : Argument.ofValue t.value = (Form.term t).argument := by
  cases t with
  | label key => rfl
  | number n =>
    have hword : UInt16.ofNat (n % 65536).toNat ≤ 0x1F ↔ n % 65536 ≤ 0x1F := by
      rw [UInt16.le_iff_toNat_le, UInt16.toNat_ofNat']
      simp only [UInt16.reduceToNat]
      omega
    by_cases h : n % 65536 ≤ 0x1F
    · have hembeds : (Term.number n).Embeds := h
      simp [Argument.ofValue, Term.value, Form.argument, Form.operand, Form.extension?, hembeds,
        hword.mpr h]
    · have hembeds : ¬(Term.number n).Embeds := h
      simp [Argument.ofValue, Term.value, Form.argument, Form.operand, Form.extension?, hembeds,
        mt hword.mp h]

theorem Argument.ofAddress_eq_ok {text inner : List Char} {x : Argument} :
    Argument.ofAddress text inner = .ok x ↔ ∃ f, Form.Addresses inner f ∧ f.argument = x := by
  unfold ofAddress
  constructor
  · intro h
    split at h
    · next left right hsplit =>
      obtain ⟨htext, hleft⟩ := splitPlus?_eq_some.mp hsplit
      split at h
      · next r hl hr =>
        obtain ⟨v, hv, ⟨⟩⟩ := bind_eq_ok.mp h
        obtain ⟨t, ht, rfl⟩ := Value.parse_eq_ok.mp hv
        exact ⟨.offset t r, .offsetAfter htext hleft hl hr ht, rfl⟩
      · next r hl hr =>
        obtain ⟨v, hv, ⟨⟩⟩ := bind_eq_ok.mp h
        obtain ⟨t, ht, rfl⟩ := Value.parse_eq_ok.mp hv
        exact ⟨.offset t r, .offsetBefore htext hleft hl hr ht, rfl⟩
      · cases h
    · next hsplit =>
      have hplus := splitPlus?_eq_none.mp hsplit
      split at h
      · next r hr => exact ⟨.indirect r, .indirect hplus hr, Except.ok.inj h⟩
      · next hr =>
        obtain ⟨v, hv, ⟨⟩⟩ := bind_eq_ok.mp h
        obtain ⟨t, ht, rfl⟩ := Value.parse_eq_ok.mp hv
        exact ⟨.cell t, .cell hplus hr ht, rfl⟩
  · rintro ⟨f, hf, rfl⟩
    cases hf with
    | offsetAfter htext hleft hl hr ht =>
      simp only [splitPlus?_eq_some.mpr ⟨htext, hleft⟩, hl, hr]
      exact bind_eq_ok.mpr ⟨_, Value.parse_eq_ok.mpr ⟨_, ht, rfl⟩, rfl⟩
    | offsetBefore htext hleft hl hr ht =>
      simp only [splitPlus?_eq_some.mpr ⟨htext, hleft⟩, hl, hr]
      exact bind_eq_ok.mpr ⟨_, Value.parse_eq_ok.mpr ⟨_, ht, rfl⟩, rfl⟩
    | indirect hplus hr =>
      simp only [splitPlus?_eq_none.mpr hplus, hr]
      rfl
    | cell hplus hr ht =>
      simp only [splitPlus?_eq_none.mpr hplus, hr]
      exact bind_eq_ok.mpr ⟨_, Value.parse_eq_ok.mpr ⟨_, ht, rfl⟩, rfl⟩

/-- The reader of operands accepts what the grammar has a reading of. -/
theorem Argument.parse_eq_ok {text : List Char} {x : Argument} :
    Argument.parse text = .ok x ↔ ∃ f, Form.Reads text f ∧ f.argument = x := by
  constructor
  · intro h
    unfold parse at h
    simp only at h
    split at h
    · next inner hinner =>
      obtain ⟨f, hf, rfl⟩ := ofAddress_eq_ok.mp h
      exact ⟨f, .address (bracketed?_eq_some.mp hinner) hf, rfl⟩
    · next hopen =>
      split at h
      · next op hop =>
        obtain ⟨f, hf, rfl⟩ := keyword?_eq_some.mp hop
        exact ⟨f, .named hf, (Form.argument_of_named hf).1.trans (Except.ok.inj h)⟩
      · next hword =>
        have hbare := Form.bare_iff.mpr ⟨hopen, hword⟩
        split at h
        · next r hr => exact ⟨.register r, .register hbare hr, Except.ok.inj h⟩
        · next hr =>
          obtain ⟨v, hv, rfl⟩ := map_eq_ok.mp h
          obtain ⟨t, ht, rfl⟩ := Value.parse_eq_ok.mp hv
          exact ⟨.term t, .term hbare hr ht, (ofValue_value t).symm⟩
  · rintro ⟨f, hf, rfl⟩
    cases hf with
    | address htext haddress =>
      simp only [parse, bracketed?_eq_some.mpr htext]
      exact ofAddress_eq_ok.mpr ⟨f, haddress, rfl⟩
    | named hf =>
      obtain ⟨harg, hopen⟩ := Form.argument_of_named hf
      rw [String.toList_ofList] at hopen
      simp only [parse, hopen, keyword?_eq_some.mpr ⟨f, hf, rfl⟩, harg]
    | register hbare hr =>
      obtain ⟨hopen, hword⟩ := Form.bare_iff.mp hbare
      simp only [parse, hopen, hword, hr]
      rfl
    | term hbare hr ht =>
      obtain ⟨hopen, hword⟩ := Form.bare_iff.mp hbare
      simp only [parse, hopen, hword, hr]
      exact map_eq_ok.mpr ⟨_, Value.parse_eq_ok.mpr ⟨_, ht, rfl⟩, ofValue_value _⟩

/-! ### Readings are unique -/

theorem Term.Reads.unique {text : List Char} {s t : Term} (hs : s.Reads text) (ht : t.Reads text) :
    s = t := by
  cases hs <;> cases ht <;> simp_all

theorem plus_inj {left right left' right' : List Char} (h : '+' ∉ left) (h' : '+' ∉ left')
    (heq : left ++ '+' :: right = left' ++ '+' :: right') : left = left' ∧ right = right' :=
  Prod.mk.inj <| Option.some.inj <|
    (splitPlus?_eq_some.mpr ⟨rfl, h⟩).symm.trans (splitPlus?_eq_some.mpr ⟨heq, h'⟩)

theorem Form.Addresses.unique {inner : List Char} {f g : Form} (hf : f.Addresses inner)
    (hg : g.Addresses inner) : f = g := by
  cases hf with
  | offsetAfter htext hleft hr hn ht =>
    cases hg with
    | offsetAfter htext' hleft' hr' _ ht' =>
      obtain ⟨rfl, rfl⟩ := plus_inj hleft hleft' (htext.symm.trans htext')
      rw [Option.some.inj (hr.symm.trans hr'), ht.unique ht']
    | offsetBefore htext' hleft' hn' =>
      obtain ⟨rfl, rfl⟩ := plus_inj hleft hleft' (htext.symm.trans htext')
      cases hr.symm.trans hn'
    | indirect hfree | cell hfree => exact absurd (by simp [htext]) hfree
  | offsetBefore htext hleft hn hr ht =>
    cases hg with
    | offsetAfter htext' hleft' hr' =>
      obtain ⟨rfl, rfl⟩ := plus_inj hleft hleft' (htext.symm.trans htext')
      cases hn.symm.trans hr'
    | offsetBefore htext' hleft' _ hr' ht' =>
      obtain ⟨rfl, rfl⟩ := plus_inj hleft hleft' (htext.symm.trans htext')
      rw [Option.some.inj (hr.symm.trans hr'), ht.unique ht']
    | indirect hfree | cell hfree => exact absurd (by simp [htext]) hfree
  | indirect hfree hr =>
    cases hg with
    | offsetAfter htext' | offsetBefore htext' => exact absurd (by simp [htext']) hfree
    | indirect _ hr' => rw [Option.some.inj (hr.symm.trans hr')]
    | cell _ hr' => cases hr.symm.trans hr'
  | cell hfree hr ht =>
    cases hg with
    | offsetAfter htext' | offsetBefore htext' => exact absurd (by simp [htext']) hfree
    | indirect _ hr' => cases hr.symm.trans hr'
    | cell _ _ ht' => rw [ht.unique ht']

theorem Form.named_unique : ∀ p ∈ named, ∀ q ∈ named, p.1 = q.1 → p.2 = q.2 := by
  decide

theorem Form.Reads.unique {text : List Char} {f g : Form} (hf : f.Reads text) (hg : g.Reads text) :
    f = g := by
  have hopen {inner : List Char} {f : Form} (htext : Text.upper text = '[' :: inner ++ [']'])
      (hf : (String.ofList (Text.upper text), f) ∈ Form.named) : False := by
    have hclosed := (Form.argument_of_named hf).2
    rw [String.toList_ofList] at hclosed
    exact bracketed?_eq_none.mp hclosed inner htext
  cases hf with
  | address htext hf =>
    cases hg with
    | address htext' hg =>
      obtain rfl := Option.some.inj
        ((bracketed?_eq_some.mpr htext).symm.trans (bracketed?_eq_some.mpr htext'))
      exact hf.unique hg
    | named hg => exact (hopen htext hg).elim
    | register hbare | term hbare => exact absurd htext (hbare.1 _)
  | named hf =>
    cases hg with
    | address htext => exact (hopen htext hf).elim
    | named hg => exact Form.named_unique _ hf _ hg rfl
    | register hbare | term hbare => exact absurd hf (hbare.2 f)
  | register hbare hr =>
    cases hg with
    | address htext => exact absurd htext (hbare.1 _)
    | named hg => exact absurd hg (hbare.2 g)
    | register _ hr' => rw [Option.some.inj (hr.symm.trans hr')]
    | term _ hr' => cases hr.symm.trans hr'
  | term hbare hr ht =>
    cases hg with
    | address htext => exact absurd htext (hbare.1 _)
    | named hg => exact absurd hg (hbare.2 g)
    | register _ hr' => cases hr.symm.trans hr'
    | term _ _ ht' => rw [ht.unique ht']

end Dcpu16.Assembly
