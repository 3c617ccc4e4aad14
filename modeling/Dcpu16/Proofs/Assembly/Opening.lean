import Dcpu16.Proofs.Assembly.Entry
import Dcpu16.Proofs.Text.Quotation

/-! Lines up to their first word.  Whichever way a line defines its label and whatever blanks stand
before and behind it, the label, the word and the text behind the word are found. -/

namespace Dcpu16.Assembly

open Text

/-! ### Words -/

theorem span_of_blank {rest : List Char} (h : ∀ c ∈ rest.head?, isBlank c = true) :
    rest.takeWhile (!isBlank ·) = [] ∧ rest.dropWhile (!isBlank ·) = rest := by
  cases rest with
  | nil => exact ⟨rfl, rfl⟩
  | cons c rest =>
    have hc : ¬(!isBlank c) = true := by
      rw [h c rfl]
      decide
    exact ⟨List.takeWhile_cons_of_neg hc, List.dropWhile_cons_of_neg hc⟩

theorem splitWord_append {word rest : List Char} (hword : IsSolid word)
    (hrest : ∀ c ∈ rest.head?, isBlank c = true) :
    splitWord (word ++ rest) = (word, trim rest) := by
  have hsolid : ∀ c ∈ word, (!isBlank c) = true := fun c hc => by simp [hword c hc]
  obtain ⟨htake, hdrop⟩ := span_of_blank hrest
  rw [splitWord, List.takeWhile_append_of_pos hsolid, List.dropWhile_append_of_pos hsolid, htake,
    hdrop, List.append_nil]

theorem splitWord_append_gap {gap : List Char} (hgap : IsGap gap) (cs : List Char) :
    splitWord (cs ++ gap) = splitWord cs := by
  obtain ⟨htake, hdrop⟩ := span_of_blank hgap.head
  have hword : (cs ++ gap).takeWhile (!isBlank ·) = cs.takeWhile (!isBlank ·) := by
    rw [List.takeWhile_append, htake, List.append_nil]
    split
    · next hall => exact (List.IsPrefix.eq_of_length (List.takeWhile_prefix _) hall).symm
    · rfl
  have hrest : trim ((cs ++ gap).dropWhile (!isBlank ·)) =
      trim (cs.dropWhile (!isBlank ·)) := by
    rw [List.dropWhile_append, hdrop]
    split
    · next hempty => rw [List.isEmpty_iff.mp hempty, hgap.trim, trim_nil]
    · exact trim_append_gap hgap _
  rw [splitWord, hword, hrest]
  rfl

theorem splitWord_trimEnd (cs : List Char) : splitWord (trimEnd cs) = splitWord cs := by
  obtain ⟨gap, hgap, hcs⟩ := exists_trimEnd cs
  conv => rhs; rw [hcs]
  exact (splitWord_append_gap hgap _).symm

/-! ### Labels -/

/-- The text defines the label, in one of the two ways, and goes on with `rest`. -/
inductive Marks (name rest : List Char) : List Char → Prop
  | leading {gap : List Char} : IsSolid name → IsGap gap → gap ≠ [] ∨ rest = [] →
      Marks name rest (':' :: (name ++ (gap ++ rest)))
  | trailing {gap : List Char} : IsSolid name → name ≠ [] → ':' ∉ name → '"' ∉ name → IsGap gap →
      Marks name rest (name ++ ':' :: (gap ++ rest))

theorem Marks.append {name word text : List Char} (h : Marks name word text) (hword : word ≠ [])
    (rest : List Char) : Marks name (word ++ rest) (text ++ rest) := by
  cases h with
  | leading hname hgap hrest =>
    rw [List.cons_append, List.append_assoc, List.append_assoc]
    exact .leading hname hgap (.inl (hrest.resolve_right hword))
  | trailing hname hne hcolon hmark hgap =>
    rw [List.append_assoc, List.cons_append, List.append_assoc]
    exact .trailing hname hne hcolon hmark hgap

theorem trim_append_of_solid {cs : List Char} (hcs : IsSolid cs) (hne : cs ≠ []) (ds : List Char) :
    trim (cs ++ ds) = cs ++ trimEnd ds := by
  have hstart : trimStart (cs ++ ds) = cs ++ ds := by
    apply trimStart_eq_self
    intro c hc
    rw [List.head?_append_of_ne_nil _ hne] at hc
    exact hcs c (List.mem_of_head? hc)
  rw [trim, hstart, trimEnd_append_of_solid hcs]

theorem trim_trimEnd (cs : List Char) : trim (trimEnd cs) = trim cs := by
  obtain ⟨gap, hgap, hcs⟩ := exists_trimEnd cs
  conv => rhs; rw [hcs]
  exact (trim_append_gap hgap _).symm

theorem append_ne_cons {c : Char} {cs : List Char} (hne : cs ≠ []) (hc : c ∉ cs)
    (ds rest : List Char) : cs ++ ds ≠ c :: rest := by
  obtain ⟨d, cs, rfl⟩ := List.exists_cons_of_ne_nil hne
  intro heq
  rw [List.cons_append, List.cons_eq_cons] at heq
  exact hc (heq.1 ▸ List.mem_cons_self)

theorem Marks.ofText {name rest text margin line : List Char} (h : Marks name rest text)
    (hmargin : IsGap margin) (hline : before ';' line = margin ++ text) :
    Line.ofText line = ⟨some name, trim rest⟩ := by
  have hcode : trim (before ';' line) = trim text := by
    rw [hline, trim_gap_append hmargin]
  cases h with
  | @leading gap hname hgap hrest =>
    have hcolon : IsSolid [':'] := by decide
    have hhead : ∀ c ∈ (gap ++ rest).head?, isBlank c = true := by
      intro c hc
      cases gap with
      | nil =>
        rw [hrest.resolve_left (by simp)] at hc
        cases hc
      | cons d gap =>
        obtain rfl := Option.some.inj hc
        exact hgap d List.mem_cons_self
    rw [← List.singleton_append, trim_append_of_solid hcolon (by simp), List.singleton_append]
      at hcode
    simp only [Line.ofText, hcode, splitWord_trimEnd,
      splitWord_append hname hhead, trim_gap_append hgap]
  | @trailing gap hname hne hcolon hmark hgap =>
    have hsolid : IsSolid (name ++ [':']) := hname.append (by decide)
    rw [← List.singleton_append, ← List.append_assoc,
      trim_append_of_solid hsolid (by simp), List.append_assoc, List.singleton_append] at hcode
    have hfirst := append_ne_cons hne hcolon (':' :: trimEnd (gap ++ rest))
    have hquote : name.contains '"' = false := by simpa using hmark
    simp only [Line.ofText, hcode, takeWhile_append_cons hcolon, hquote, hname.any_isBlank]
    simp [trim_trimEnd, trim_gap_append hgap]

/-! ### First words -/

/-- The text is a line up to the end of its first word behind the label. -/
inductive Opening (word : List Char) : Option (List Char) → List Char → Prop
  | plain {margin : List Char} : IsSolid word → word ≠ [] → IsGap margin → ':' ∉ word →
      Opening word none (margin ++ word)
  | marked {margin name text : List Char} : IsSolid word → word ≠ [] → IsGap margin →
      Marks name word text → Opening word (some name) (margin ++ text)

theorem Opening.isSolid {word x : List Char} {label : Option (List Char)}
    (h : Opening word label x) : IsSolid word ∧ word ≠ [] := by
  cases h with
  | plain hword hne => exact ⟨hword, hne⟩
  | marked hword hne => exact ⟨hword, hne⟩

theorem Line.ofText_of_word {margin word rest line : List Char} (hmargin : IsGap margin)
    (hword : IsSolid word) (hne : word ≠ []) (hcolon : ':' ∉ word)
    (hrest : ∀ c ∈ rest.head?, isBlank c = true)
    (hline : before ';' line = margin ++ (word ++ rest)) :
    Line.ofText line = ⟨none, trim (word ++ rest)⟩ := by
  have hcode : trim (before ';' line) = word ++ trimEnd rest := by
    rw [hline, trim_gap_append hmargin, trim_append_of_solid hword hne]
  have hfirst := append_ne_cons hne hcolon (trimEnd rest)
  -- A colon behind the word has the blank after the word before it.
  have hhead : ':' ∈ trimEnd rest →
      ((word ++ trimEnd rest).takeWhile (· != ':')).any isBlank = true := by
    intro hmem
    obtain ⟨gap, -, hgap⟩ := exists_trimEnd rest
    obtain ⟨before, after, hsplit, hbefore⟩ := List.eq_append_cons_of_mem hmem
    have hother : ':' ∉ word ++ before := by
      rw [List.mem_append, not_or]
      exact ⟨hcolon, hbefore⟩
    rw [hsplit, ← List.append_assoc, takeWhile_append_cons hother]
    cases before with
    | nil =>
      have hc := hrest ':' (by rw [hgap, hsplit]; rfl)
      exact absurd hc (by decide)
    | cons c before =>
      have hc : isBlank c = true := hrest c (by rw [hgap, hsplit]; rfl)
      simp [hc]
  rw [trim_append_of_solid hword hne]
  simp only [Line.ofText, hcode]
  -- `hfirst` rules out the first case of the match.
  split
  · next hlabel =>
    simp only [Bool.and_eq_true, Bool.not_eq_true', List.contains_iff_mem, List.mem_append]
      at hlabel
    obtain ⟨⟨hmem, -⟩, hsolid⟩ := hlabel
    rw [hhead (hmem.resolve_left hcolon)] at hsolid
    cases hsolid
  · rfl

/-- What a line is taken apart into. -/
theorem Opening.ofText {word x rest line : List Char} {label : Option (List Char)}
    (h : Opening word label x) (hrest : ∀ c ∈ rest.head?, isBlank c = true)
    (hline : before ';' line = x ++ rest) :
    Line.ofText line = ⟨label, trim (word ++ rest)⟩ := by
  cases h with
  | plain hword hne hmargin hcolon =>
    rw [List.append_assoc] at hline
    exact Line.ofText_of_word hmargin hword hne hcolon hrest hline
  | marked hword hne hmargin hmarks =>
    rw [List.append_assoc] at hline
    exact (hmarks.append hne rest).ofText hmargin hline

/-- Trimmed text starts with a word, and the text behind it with a blank. -/
theorem exists_word {cs word rest : List Char} (hne : trim cs ≠ [])
    (hsplit : splitWord (trim cs) = (word, rest)) :
    ∃ gap r, cs = gap ++ (word ++ r) ∧ IsGap gap ∧ IsSolid word ∧ word ≠ [] ∧
      (∀ c ∈ r.head?, isBlank c = true) ∧ trim r = rest := by
  obtain ⟨gap, gap', hgap, hgap', hcs⟩ := exists_trim cs
  obtain ⟨rfl, rfl⟩ := Prod.mk.inj hsplit
  refine ⟨gap, (trim cs).dropWhile (!isBlank ·) ++ gap', ?_, hgap, ?_, ?_, ?_, ?_⟩
  · conv => lhs; rw [hcs]
    rw [List.append_assoc, ← List.append_assoc (List.takeWhile _ _),
      List.takeWhile_append_dropWhile]
  · exact isSolid_takeWhile _
  · cases htrim : trim cs with
    | nil => exact absurd htrim hne
    | cons c ds =>
      have hc : (!isBlank c) = true := by
        rw [isBlank_of_mem_head?_trim (by rw [htrim]; rfl)]
        rfl
      rw [List.takeWhile_cons_of_pos (p := (!isBlank ·)) hc]
      exact List.cons_ne_nil _ _
  · exact head_append_gap (head_dropWhile _) hgap'
  · exact trim_append_gap hgap' _

/-- The three ways in which a line is taken apart. -/
theorem Line.ofText_cases (l : List Char) :
    (∃ rest, trim (before ';' l) = ':' :: rest ∧
      Line.ofText l = ⟨some (splitWord rest).1, (splitWord rest).2⟩) ∨
    (∃ head rest, trim (before ';' l) = head ++ ':' :: rest ∧ IsSolid head ∧ head ≠ [] ∧
      ':' ∉ head ∧ '"' ∉ head ∧ Line.ofText l = ⟨some head, trim rest⟩) ∨
    (∀ head rest, trim (before ';' l) = head ++ ':' :: rest → IsSolid head → ':' ∉ head →
      '"' ∈ head) ∧ Line.ofText l = ⟨none, trim (before ';' l)⟩ := by
  unfold Line.ofText
  dsimp only
  generalize trim (before ';' l) = code
  split
  · next rest => exact .inl ⟨rest, rfl, rfl⟩
  · next hfirst =>
    right
    by_cases hcolon : ':' ∈ code
    · obtain ⟨head, rest, rfl, hhead⟩ := List.eq_append_cons_of_mem hcolon
      have hdrop : (head ++ ':' :: rest).drop (head.length + 1) = rest := by
        rw [← List.drop_drop, List.drop_left]
        rfl
      rw [takeWhile_append_cons hhead, hdrop]
      split
      · next hlabel =>
        simp only [Bool.and_eq_true, Bool.not_eq_true', List.any_eq_false] at hlabel
        refine .inl ⟨head, rest, rfl, ?_, ?_, hhead, ?_, rfl⟩
        · intro c hc
          simpa using hlabel.2 c hc
        · rintro rfl
          exact hfirst rest rfl
        · simpa using hlabel.1.2
      · next hlabel =>
        refine .inr ⟨?_, rfl⟩
        intro head' rest' heq hsolid hhead'
        have hsame : head = head' := by
          rw [← takeWhile_append_cons hhead rest, heq, takeWhile_append_cons hhead']
        subst hsame
        by_contra hmark
        apply hlabel
        simp [hmark, hsolid.any_isBlank]
    · refine .inr ⟨?_, if_neg (by simp [hcolon])⟩
      rintro head rest rfl
      simp at hcolon

/-- Every line with a statement has an opening, if its first word holds no quotation mark. -/
theorem exists_opening {l word rest : List Char} (hne : (Line.ofText l).body ≠ [])
    (hsplit : splitWord (Line.ofText l).body = (word, rest)) (hmark : '"' ∉ word) :
    ∃ x r, Opening word (Line.ofText l).label x ∧ before ';' l = x ++ r ∧
      (∀ c ∈ r.head?, isBlank c = true) ∧ trim r = rest := by
  obtain ⟨margin, margin', hmargin, hmargin', hcode⟩ := exists_trim (before ';' l)
  rcases Line.ofText_cases l with ⟨tail, hfirst, hline⟩ | ⟨name, tail, hfirst, hname, hnonempty,
    hcolon, hquote, hline⟩ | ⟨hnone, hline⟩
  · rw [hline] at hne hsplit ⊢
    have hsolid := isSolid_takeWhile tail
    obtain ⟨gap, r, htail, hgap, hword, hne', hr, htrim⟩ := exists_word hne hsplit
    refine ⟨margin ++ ':' :: (tail.takeWhile (!isBlank ·) ++ (gap ++ word)), r ++ margin',
      .marked hword hne' hmargin (.leading hsolid hgap (.inl ?_)), ?_,
      head_append_gap hr hmargin', ?_⟩
    · -- The name ends at a blank, so the word does not follow at once.
      rintro rfl
      obtain ⟨c, word, rfl⟩ := List.exists_cons_of_ne_nil hne'
      have hblank := head_dropWhile tail c (by rw [htail]; rfl)
      rw [hword c List.mem_cons_self] at hblank
      cases hblank
    · rw [hcode, hfirst]
      conv => lhs; rw [← List.takeWhile_append_dropWhile (p := (!isBlank ·)) (l := tail), htail]
      simp
    · rw [trim_append_gap hmargin', htrim]
  · rw [hline] at hne hsplit ⊢
    obtain ⟨gap, r, rfl, hgap, hword, hne', hr, htrim⟩ := exists_word hne hsplit
    refine ⟨margin ++ (name ++ ':' :: (gap ++ word)), r ++ margin',
      .marked hword hne' hmargin (.trailing hname hnonempty hcolon hquote hgap), ?_,
      head_append_gap hr hmargin', ?_⟩
    · rw [hcode, hfirst]
      simp
    · rw [trim_append_gap hmargin', htrim]
  · rw [hline] at hne hsplit ⊢
    obtain ⟨gap, r, hwhole, hgap, hword, hne', hr, htrim⟩ := exists_word hne hsplit
    refine ⟨gap ++ word, r, .plain hword hne' hgap ?_, ?_, hr, htrim⟩
    · intro hmem
      obtain ⟨head, back, rfl, hhead⟩ := List.eq_append_cons_of_mem hmem
      have hstart : trim (before ';' l) = head ++ ':' :: (back ++ trimEnd r) := by
        rw [hwhole, trim_gap_append hgap, trim_append_of_solid hword hne', List.append_assoc,
          List.cons_append]
      have hsolid : IsSolid head := fun c hc => hword c (List.mem_append_left _ hc)
      exact hmark (List.mem_append_left _ (hnone head _ hstart hsolid hhead))
    · rw [hwhole, List.append_assoc]

/-! ### Statements -/

/-- A first word that makes a line a data line. -/
def OpensData (word : List Char) : Prop :=
  upper word = "DAT".toList ∨ upper word = "DATA".toList

instance : DecidablePred OpensData := fun word =>
  inferInstanceAs (Decidable (upper word = "DAT".toList ∨ upper word = "DATA".toList))

/-- A first word and the text behind it stand for the statement. -/
inductive Clause.Parses (word rest : List Char) : Clause → Prop
  | instruction {left right : List Char} {opcode : Opcode} {a b : Form} :
      Opcode.ofMnemonic? (upper word) = some opcode → pieces ',' rest = [left, right] →
      left ≠ [] → right ≠ [] → a.Reads left → b.Reads right →
      Parses word rest (.instruction opcode a b)
  | data {items : List Item} : OpensData word → rest ≠ [] →
      List.Forall₂ Item.Reads (piecesOutside ',' rest) items → Parses word rest (.data items)

theorem Clause.reads_iff {text word rest : List Char} {c : Clause}
    (h : splitWord text = (word, rest)) : Clause.Reads text c ↔ Clause.Parses word rest c := by
  constructor
  · intro hc
    cases hc with
    | instruction hsplit hop hpieces hleft hright ha hb =>
      obtain ⟨rfl, rfl⟩ := Prod.mk.inj (h.symm.trans hsplit)
      exact .instruction hop hpieces hleft hright ha hb
    | data hsplit hword hrest hitems =>
      obtain ⟨rfl, rfl⟩ := Prod.mk.inj (h.symm.trans hsplit)
      exact .data hword hrest (List.forall₂_map_left_iff.mpr hitems)
  · intro hc
    cases hc with
    | instruction hop hpieces hleft hright ha hb =>
      exact .instruction h hop hpieces hleft hright ha hb
    | data hword hrest hitems =>
      exact .data h hword hrest (List.forall₂_map_left_iff.mp hitems)

theorem OpensData.not_mnemonic {word : List Char} (h : OpensData word) :
    Opcode.ofMnemonic? (upper word) = none := by
  rcases h with h | h
  · rw [h, ofMnemonic?_data.1]
  · rw [h, ofMnemonic?_data.2]

theorem Entry.holds_iff {l : Line} {word rest : List Char} {clause : Option Clause}
    (hne : l.body ≠ []) (hsplit : splitWord l.body = (word, rest)) :
    Entry.Holds l clause ↔ ∃ c, clause = some c ∧ Clause.Parses word rest c := by
  constructor
  · intro h
    cases h with
    | none hempty => exact absurd hempty hne
    | some _ hc => exact ⟨_, rfl, (Clause.reads_iff hsplit).mp hc⟩
  · rintro ⟨c, rfl, hc⟩
    exact .some hne ((Clause.reads_iff hsplit).mpr hc)

theorem Opening.holds_iff {word x rest line : List Char} {label : Option (List Char)}
    {clause : Option Clause} (h : Opening word label x)
    (hrest : ∀ c ∈ rest.head?, isBlank c = true) (hline : before ';' line = x ++ rest) :
    Entry.Holds (Line.ofText line) clause ↔
      ∃ c, clause = some c ∧ Clause.Parses word (trim rest) c := by
  obtain ⟨hword, hne⟩ := h.isSolid
  have hbody : trim (word ++ rest) = word ++ trimEnd rest := trim_append_of_solid hword hne rest
  rw [h.ofText hrest hline]
  apply Entry.holds_iff
  · show trim (word ++ rest) ≠ []
    rw [hbody]
    exact List.append_ne_nil_of_left_ne_nil hne _
  · show splitWord (trim (word ++ rest)) = _
    rw [hbody, ← trimEnd_append_of_solid hword, splitWord_trimEnd, splitWord_append hword hrest]

end Dcpu16.Assembly
