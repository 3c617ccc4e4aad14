import Dcpu16.Proofs.Assembly.Spelling

/-! Edits of a line that leave its program as it is: the case of letters, comments, blanks, the way
in which a label is defined, and the order of the two sides of a plus sign.  An edited line is read
as the line was. -/

namespace Dcpu16.Assembly

open Text

/-! ### Edits -/

/-- Another layout of an operand in square brackets.  Blanks may stand beside the plus sign between
a register and a value; a plus sign behind another one that follows a register is the sign of a
number, and no blanks may stand there. -/
inductive OperandEdit : List Char → List Char → Prop
  | brackets {gap gap' inner : List Char} : IsGap gap → IsGap gap' →
      OperandEdit ('[' :: inner ++ [']']) ('[' :: (gap ++ inner ++ gap') ++ [']'])
  | plus {gap gap' left right : List Char} : IsGap gap → IsGap gap' →
      (∀ x y, left = x ++ '+' :: y → '+' ∉ x → Register.ofName? (upper x) = none) →
      OperandEdit ('[' :: (left ++ '+' :: right) ++ [']'])
        ('[' :: (left ++ gap ++ '+' :: (gap' ++ right)) ++ [']'])
  | swap {left right : List Char} : '+' ∉ left → '+' ∉ right →
      OperandEdit ('[' :: (left ++ '+' :: right) ++ [']'])
        ('[' :: (right ++ '+' :: left) ++ [']'])

/-- Another layout of the text behind the word.  Commas separate the items of a data line only
outside quotations. -/
inductive OperandsEdit (word : List Char) : List Char → List Char → Prop
  | comma {gap gap' left right : List Char} : IsGap gap → IsGap gap' →
      (OpensData word → Balanced left) →
      OperandsEdit word (left ++ ',' :: right) (left ++ gap ++ ',' :: (gap' ++ right))
  | operand {left right gap gap' p q : List Char} : ¬OpensData word →
      (left = [] ∨ ∃ first, left = first ++ [',']) → (right = [] ∨ ∃ rest, right = ',' :: rest) →
      IsGap gap → IsGap gap' → ',' ∉ p → ',' ∉ q → OperandEdit p q →
      OperandsEdit word (left ++ (gap ++ p ++ gap' ++ right)) (left ++ (gap ++ q ++ gap' ++ right))

/-- Another layout of a line.  The operands are edited while the line has no comment: before and
after that `comment` takes the comment off and puts it back. -/
inductive LineEdit : List Char → List Char → Prop
  | letters {l l' : List Char} : '"' ∉ l → l.map Char.toUpper = l'.map Char.toUpper → LineEdit l l'
  | comment {l : List Char} (remark : List Char) : Balanced l → LineEdit l (l ++ ';' :: remark)
  | margins {gap gap' l : List Char} : IsGap gap → IsGap gap' → LineEdit l (gap ++ l ++ gap')
  | label {margin name rest text text' : List Char} : IsGap margin → isIdentifier name = true →
      Marks name rest text → Marks name rest text' → LineEdit (margin ++ text) (margin ++ text')
  | operands {word x y y' : List Char} {label : Option (List Char)} {c : Char} :
      Opening word label x → isBlank c = true → ¬Exposes ';' (x ++ c :: y) →
      ¬Exposes ';' (x ++ c :: y') → OperandsEdit word y y' → LineEdit (x ++ c :: y) (x ++ c :: y')

/-! ### Operands -/

theorem OperandEdit.reads {p q : List Char} (h : OperandEdit p q) (f : Form) :
    Form.Reads p f ↔ Form.Reads q f := by
  have hplus {cs : List Char} (h : '+' ∉ cs) : '+' ∉ upper cs := mt plus_mem_upper.mp h
  have hsplit (cs ds : List Char) : upper (cs ++ '+' :: ds) = upper cs ++ '+' :: upper ds := by
    rw [upper_append]
    rfl
  cases h with
  | brackets hgap hgap' =>
    rw [Form.reads_bracketed, Form.reads_bracketed, upper_append, upper_append, hgap.upper,
      hgap'.upper]
    exact (Form.addresses_gap hgap hgap').symm
  | @plus gap gap' left right hgap hgap' hsign =>
    rw [Form.reads_bracketed, Form.reads_bracketed, hsplit, hsplit, upper_append, upper_append,
      hgap.upper, hgap'.upper]
    refine (Form.addresses_plus_gap hgap hgap' ?_).symm
    intro x y hleft hx
    have hmem : '+' ∈ left := by
      rw [← plus_mem_upper, hleft]
      simp
    obtain ⟨x', y', rfl, hx'⟩ := List.eq_append_cons_of_mem hmem
    rw [hsplit] at hleft
    obtain ⟨rfl, -⟩ := plus_inj (hplus hx') hx hleft
    exact hsign x' y' rfl hx'
  | swap hleft hright =>
    rw [Form.reads_bracketed, Form.reads_bracketed, hsplit, hsplit,
      Form.addresses_plus (hplus hleft), Form.addresses_plus (hplus hright)]
    exact ⟨.swap, .swap⟩

theorem OperandEdit.bracketed {p q : List Char} (h : OperandEdit p q) :
    (∃ inner, p = '[' :: inner ++ [']']) ∧ ∃ inner, q = '[' :: inner ++ [']'] := by
  cases h <;> exact ⟨⟨_, rfl⟩, ⟨_, rfl⟩⟩

theorem trim_ne_nil {c : Char} {cs : List Char} (hc : isBlank c = false) (hmem : c ∈ cs) :
    trim cs ≠ [] :=
  List.ne_nil_of_mem (mem_trim hc hmem)

theorem OperandsEdit.similar {word y y' : List Char} (h : OperandsEdit word y y') :
    Clause.Similar word (trim y) word (trim y') := by
  cases h with
  | @comma gap gap' left right hgap hgap' hdata =>
    have hcomma : isBlank ',' = false := by decide
    refine ⟨rfl, iff_of_false (trim_ne_nil hcomma (by simp)) (trim_ne_nil hcomma (by simp)),
      fun _ => ?_, fun hword => ?_⟩
    · rw [pieces_trim hcomma, pieces_trim hcomma, pieces_separator hcomma hgap hgap']
      exact forall₂_refl SameOperand.refl _
    · rw [piecesOutside_trim hcomma, piecesOutside_trim hcomma,
        piecesOutside_separator hcomma (by decide) hgap hgap' (hdata hword)]
      exact forall₂_refl (fun _ _ => .rfl) _
  | @operand left right gap gap' p q hcode hleft hright hgap hgap' hp hq hedit =>
    have hbracket : isBlank '[' = false := by decide
    obtain ⟨⟨inner, hopen⟩, ⟨inner', hopen'⟩⟩ := hedit.bracketed
    have hmem : '[' ∈ p := by simp [hopen]
    have hmem' : '[' ∈ q := by simp [hopen']
    refine ⟨rfl, iff_of_false (trim_ne_nil hbracket (by simp [hmem]))
      (trim_ne_nil hbracket (by simp [hmem'])), fun _ => ?_, fun hword => absurd hword hcode⟩
    have hcomma : isBlank ',' = false := by decide
    obtain ⟨before, after, hbetween⟩ := exists_pieces_between hleft hright
    have hpiece {p inner : List Char} (hp : ',' ∉ p) (hopen : p = '[' :: inner ++ [']']) :
        pieces ',' (left ++ (gap ++ p ++ gap' ++ right)) = before ++ p :: after := by
      rw [hbetween _ (not_mem_around hcomma hgap hgap' hp), trim_append_gap hgap',
        trim_gap_append hgap, hopen, trim_enclosed hbracket (by decide)]
    have hne : p = [] ↔ q = [] := by
      rw [hopen, hopen']
      simp
    rw [pieces_trim hcomma, pieces_trim hcomma, hpiece hp hopen, hpiece hq hopen']
    exact List.rel_append (forall₂_refl SameOperand.refl before)
      (.cons ⟨hne, hedit.reads⟩ (forall₂_refl SameOperand.refl after))

/-! ### Letters -/

theorem splitWord_map_toUpper (cs : List Char) : splitWord (cs.map Char.toUpper) =
    ((splitWord cs).1.map Char.toUpper, (splitWord cs).2.map Char.toUpper) := by
  have hsolid : (fun c => !isBlank c) ∘ Char.toUpper = fun c => !isBlank c := by
    funext c
    rw [Function.comp_apply, isBlank_toUpper]
  rw [splitWord, List.takeWhile_map, List.dropWhile_map, hsolid, trim_map_toUpper]
  rfl

theorem Line.ofText_map_toUpper (l : List Char) : Line.ofText (l.map Char.toUpper) =
    ⟨(Line.ofText l).label.map (List.map Char.toUpper),
      (Line.ofText l).body.map Char.toUpper⟩ := by
  have hcode : trim (before ';' (l.map Char.toUpper)) =
      (trim (before ';' l)).map Char.toUpper := by
    rw [before_map_toUpper (by decide), trim_map_toUpper]
  simp only [Line.ofText, hcode]
  generalize trim (before ';' l) = code
  have hcontains {d : Char} (hd : d.isAlpha = false) (cs : List Char) :
      (cs.map Char.toUpper).contains d = cs.contains d := by
    rw [Bool.eq_iff_iff, List.contains_iff_mem, List.contains_iff_mem, mem_map_toUpper hd]
  have hhead : (code.map Char.toUpper).takeWhile (· != ':') =
      (code.takeWhile (· != ':')).map Char.toUpper := by
    rw [List.takeWhile_map]
    congr 2
    funext c
    rw [Function.comp_apply, bne, bne, toUpper_beq (by decide)]
  have hblank (cs : List Char) : (cs.map Char.toUpper).any isBlank = cs.any isBlank := by
    rw [List.any_map]
    congr 1
    exact funext isBlank_toUpper
  by_cases hlabel : ∃ rest, code = ':' :: rest
  · obtain ⟨rest, rfl⟩ := hlabel
    have hcolon : (':' :: rest).map Char.toUpper = ':' :: rest.map Char.toUpper := rfl
    simp only [hcolon, splitWord_map_toUpper]
    rfl
  · have hfirst : ∀ rest, code ≠ ':' :: rest := fun rest h => hlabel ⟨rest, h⟩
    have hfirst' : ∀ rest, code.map Char.toUpper ≠ ':' :: rest := by
      intro rest h
      obtain ⟨c, cs, rfl, hc, -⟩ := List.map_eq_cons_iff.mp h
      rw [toUpper_eq_iff (by decide)] at hc
      exact hfirst cs (hc ▸ rfl)
    -- The two facts rule out the first case of the matches.
    simp only [hcontains (d := ':') (by decide), hhead, hcontains (d := '"') (by decide), hblank,
      List.length_map, ← List.map_drop, trim_map_toUpper]
    split <;> rfl

theorem Line.body_subset (l : List Char) : (Line.ofText l).body ⊆ l := by
  have hcode : trim (before ';' l) ⊆ l :=
    List.Subset.trans (trim_subset _) (before_subset ';' l)
  have hrest (cs : List Char) : (splitWord cs).2 ⊆ cs :=
    List.Subset.trans (trim_subset _) (List.dropWhile_subset _)
  unfold Line.ofText
  dsimp only
  generalize trim (before ';' l) = code at hcode
  split
  · next rest =>
    exact List.Subset.trans (hrest rest) (List.Subset.trans (List.subset_cons_self _ _) hcode)
  · split
    · exact List.Subset.trans (trim_subset _) (List.Subset.trans (List.drop_subset _ _) hcode)
    · exact hcode

theorem Item.reads_toUpper {cs : List Char} (h : '"' ∉ cs) : SameItem cs (cs.map Char.toUpper) := by
  have hquotation (inner : List Char) : cs ≠ '"' :: inner ++ ['"'] := by
    rintro rfl
    simp at h
  have hquotation' (inner : List Char) : cs.map Char.toUpper ≠ '"' :: inner ++ ['"'] := by
    intro heq
    rw [← mem_map_toUpper (by decide), heq] at h
    simp at h
  intro i
  constructor
  · intro hi
    cases hi with
    | text heq => exact absurd heq (hquotation _)
    | term _ ht => exact .term hquotation' (Term.reads_toUpper.mpr ht)
  · intro hi
    cases hi with
    | text heq => exact absurd heq (hquotation' _)
    | term _ ht => exact .term hquotation (Term.reads_toUpper.mp ht)

theorem Clause.similar_map_toUpper (word : List Char) {rest : List Char} (h : '"' ∉ rest) :
    Similar word rest (word.map Char.toUpper) (rest.map Char.toUpper) := by
  refine ⟨(upper_map_toUpper word).symm, by simp, fun _ => ?_, fun _ => ?_⟩
  · rw [pieces_map_toUpper (by decide), List.forall₂_map_right_iff, List.forall₂_same]
    intro p _
    have hupper := upper_map_toUpper p
    exact ⟨by simp, fun f => ⟨.of_upper_eq hupper.symm, .of_upper_eq hupper⟩⟩
  · rw [piecesOutside_map_toUpper (by decide), List.forall₂_map_right_iff, List.forall₂_same]
    intro p hp
    exact Item.reads_toUpper fun hmem => h (piecesOutside_subset hp hmem)

theorem Entry.Labels.body {label : Option (List Char)} {body : List Char} {key : Option String}
    (h : Labels ⟨label, body⟩ key) (body' : List Char) : Labels ⟨label, body'⟩ key := by
  cases h with
  | none hnone => exact .none hnone
  | some hsome hid => exact .some hsome hid

theorem Entry.labels_toUpper {l : Line} {key : Option String} (body : List Char) :
    Entry.Labels ⟨l.label.map (List.map Char.toUpper), body⟩ key ↔ Entry.Labels l key := by
  constructor
  · intro h
    cases h with
    | none hnone => exact .none (Option.map_eq_none_iff.mp hnone)
    | some hsome hid =>
      obtain ⟨name, hname, rfl⟩ := Option.map_eq_some_iff.mp hsome
      rw [isIdentifier_toUpper] at hid
      rw [labelKey_toUpper]
      exact .some hname hid
  · intro h
    cases h with
    | none hnone => exact .none (Option.map_eq_none_iff.mpr hnone)
    | some hsome hid =>
      rw [← labelKey_toUpper]
      refine .some (Option.map_eq_some_iff.mpr ⟨_, hsome, rfl⟩) ?_
      rwa [isIdentifier_toUpper]

theorem Entry.holds_of_similar {l l' : Line} {word rest word' rest' : List Char}
    {clause : Option Clause} (hsplit : splitWord l.body = (word, rest))
    (hsplit' : splitWord l'.body = (word', rest')) (hempty : l.body = [] ↔ l'.body = [])
    (hsimilar : Clause.Similar word rest word' rest') (h : Holds l clause) : Holds l' clause := by
  cases h with
  | none hnone => exact .none (hempty.mp hnone)
  | some hne hc =>
    have hparses := hsimilar.parses ((Clause.reads_iff hsplit).mp hc)
    exact .some (mt hempty.mpr hne) ((Clause.reads_iff hsplit').mpr hparses)

theorem Entry.reads_toUpper {l : List Char} {e : Entry} (h : '"' ∉ l) :
    Entry.Reads (l.map Char.toUpper) e ↔ Entry.Reads l e := by
  have hrest : '"' ∉ (splitWord (Line.ofText l).body).2 := fun hmem =>
    h (Line.body_subset l (List.dropWhile_subset _ (trim_subset _ hmem)))
  have hsimilar := Clause.similar_map_toUpper (splitWord (Line.ofText l).body).1 hrest
  have hsplit := splitWord_map_toUpper (Line.ofText l).body
  rw [Entry.Reads, Entry.Reads, Line.ofText_map_toUpper, Entry.labels_toUpper]
  refine and_congr_right fun _ => ⟨?_, ?_⟩
  · exact Entry.holds_of_similar hsplit rfl (by simp) hsimilar.symm
  · exact Entry.holds_of_similar rfl hsplit (by simp) hsimilar

/-! ### Labels -/

theorem Marks.before {margin name rest text : List Char} (hmargin : IsGap margin)
    (hid : isIdentifier name = true) (h : Marks name rest text) :
    ∃ text', Marks name (before ';' rest) text' ∧
      before ';' (margin ++ text) = margin ++ text' := by
  have hfront {front : List Char} (hsemicolon : ';' ∉ front) (hmark : '"' ∉ front)
      (cs : List Char) : Text.before ';' (front ++ cs) = front ++ Text.before ';' cs :=
    before_append_of_balanced (not_exposes_of_not_mem hsemicolon) (balanced_of_not_mem hmark) cs
  have hfree {gap : List Char} {d : Char} (hgap : IsGap gap) (hd : isBlank d = false)
      (hpart : isNamePart d = false) (hcolon : d ≠ ':') :
      d ∉ margin ++ ':' :: (name ++ gap) ∧ d ∉ margin ++ (name ++ ':' :: gap) := by
    have hname := not_mem_of_isIdentifier hid hpart
    have hm := hmargin.not_mem hd
    have hg := hgap.not_mem hd
    simp [hname, hm, hg, hcolon]
  cases h with
  | @leading gap hname hgap hrest =>
    have hsemicolon := (hfree hgap (d := ';') (by decide) (by decide) (by decide)).1
    have hmark := (hfree hgap (d := '"') (by decide) (by decide) (by decide)).1
    refine ⟨':' :: (name ++ (gap ++ Text.before ';' rest)), .leading hname hgap ?_, ?_⟩
    · rcases hrest with hgap | rfl
      · exact .inl hgap
      · exact .inr rfl
    · have hcut := hfront hsemicolon hmark rest
      simpa using hcut
  | @trailing gap hname hne hcolon hquote hgap =>
    have hsemicolon := (hfree hgap (d := ';') (by decide) (by decide) (by decide)).2
    have hmark := (hfree hgap (d := '"') (by decide) (by decide) (by decide)).2
    refine ⟨name ++ ':' :: (gap ++ Text.before ';' rest), .trailing hname hne hcolon hquote hgap,
      ?_⟩
    have hcut := hfront hsemicolon hmark rest
    simpa using hcut

/-! ### Lines -/

theorem Line.ofText_congr {l l' : List Char}
    (h : trim (Text.before ';' l) = trim (Text.before ';' l')) :
    Line.ofText l = Line.ofText l' := by
  simp only [Line.ofText, h]

/-- An edited line is read as it was read before. -/
theorem LineEdit.reads {l l' : List Char} (h : LineEdit l l') (e : Entry) :
    Entry.Reads l e ↔ Entry.Reads l' e := by
  have hsame {l l' : List Char} (heq : Line.ofText l = Line.ofText l') :
      Entry.Reads l e ↔ Entry.Reads l' e := by
    rw [Entry.Reads, heq, Entry.Reads]
  cases h with
  | letters hmark heq =>
    have hmark' : '"' ∉ l' := by
      rwa [← mem_map_toUpper (by decide), ← heq, mem_map_toUpper (by decide)]
    rw [← Entry.reads_toUpper hmark, heq, Entry.reads_toUpper hmark']
  | comment remark hbalanced =>
    apply hsame
    apply Line.ofText_congr
    rw [before_append_cons hbalanced]
  | margins hgap hgap' =>
    apply hsame
    apply Line.ofText_congr
    rw [trim_before_gap (by decide) hgap hgap']
  | label hmargin hid hmarks hmarks' =>
    obtain ⟨text, htext, hline⟩ := hmarks.before hmargin hid
    obtain ⟨text', htext', hline'⟩ := hmarks'.before hmargin hid
    apply hsame
    rw [htext.ofText hmargin hline, htext'.ofText hmargin hline']
  | @operands word x y y' label c hopening hc hexposed hexposed' hedit =>
    have hhead := head_cons hc
    have hline := before_eq_self hexposed
    have hline' := before_eq_self hexposed'
    have hsimilar := hedit.similar
    rw [← trim_cons hc y, ← trim_cons hc y'] at hsimilar
    rw [Entry.Reads, Entry.Reads, hopening.holds_iff (hhead y) hline,
      hopening.holds_iff (hhead y') hline', hopening.ofText (hhead y) hline,
      hopening.ofText (hhead y') hline']
    constructor
    · rintro ⟨hlabel, c, hc, hparses⟩
      exact ⟨hlabel.body _, c, hc, hsimilar.parses hparses⟩
    · rintro ⟨hlabel, c, hc, hparses⟩
      exact ⟨hlabel.body _, c, hc, hsimilar.symm.parses hparses⟩

end Dcpu16.Assembly
