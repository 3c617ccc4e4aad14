import Dcpu16.Proofs.Assembly.Boundaries
import Dcpu16.Proofs.Assembly.Positions
import Dcpu16.Proofs.Text.Lines

/-! Data lines.  The text behind the word is cut at the commas outside quotations, and each piece is
a number, a label or a text between quotation marks, which stands for one word for each character
whatever it holds.  But marks inside such a text are no error, and a character beyond the words is
cut down to a word. -/

namespace Dcpu16.Assembly

open Layout Text

/-- The line is a data line, and `body` is what it holds behind its first word and before its
comment. -/
inductive DataLine (l body : List Char) : Prop
  | intro {word x : List Char} {label : Option (List Char)} {c : Char} : Opening word label x →
      OpensData word → isBlank c = true → IsBefore ';' l (x ++ c :: body) → DataLine l body

theorem OpensData.mark_not_mem {word : List Char} (h : OpensData word) : '"' ∉ word := by
  intro hmem
  have hupper : '"' ∈ upper word := List.mem_flatMap.mpr ⟨'"', hmem, by decide⟩
  rcases h with h | h
  · rw [h] at hupper
    exact absurd hupper (by decide)
  · rw [h] at hupper
    exact absurd hupper (by decide)

/-- Every line that is taken for a data line is one, unless it holds nothing. -/
theorem exists_dataLine {l word rest : List Char}
    (hsplit : splitWord (Line.ofText l).body = (word, rest)) (hword : OpensData word)
    (hrest : rest ≠ []) : ∃ body, DataLine l body ∧ trim body = rest := by
  have hne : (Line.ofText l).body ≠ [] := by
    intro hempty
    rw [hempty] at hsplit
    exact hrest (Prod.mk.inj hsplit).2.symm
  obtain ⟨x, r, hopening, hline, hr, htrim⟩ := exists_opening hne hsplit hword.mark_not_mem
  cases r with
  | nil => exact absurd htrim.symm hrest
  | cons c body =>
    have hc := hr c rfl
    refine ⟨body, .intro hopening hword hc ?_, by rw [← trim_cons hc, htrim]⟩
    rw [← hline]
    exact isBefore_before ';' l

theorem Item.not_reads_nil (i : Item) : ¬Item.Reads [] i := by
  intro h
  cases h with
  | text heq => cases heq
  | term _ ht =>
    cases ht with
    | number hnumeral => cases hnumeral
    | label _ hid => cases hid

section Reading

variable {l body : List Char} {ps : List (List Char)}

/-- A data line is read item by item. -/
theorem DataLine.holds_iff (h : DataLine l body) (hcut : IsCut ',' body ps)
    {clause : Option Clause} : Entry.Holds (Line.ofText l) clause ↔
      ∃ items, clause = some (.data items) ∧ List.Forall₂ Item.Reads (ps.map trim) items := by
  obtain ⟨hopening, hword, hc, hline⟩ := h
  have hpieces : piecesOutside ',' (trim body) = ps.map trim := by
    rw [piecesOutside_trim (by decide), piecesOutside, hcut.splitOutside_eq (by decide)]
  rw [hopening.holds_iff (head_cons hc body) hline.before_eq, trim_cons hc]
  constructor
  · rintro ⟨c, rfl, hparses⟩
    cases hparses with
    | instruction hop => cases hword.not_mnemonic.symm.trans hop
    | data _ _ hitems => exact ⟨_, rfl, hpieces ▸ hitems⟩
  · rintro ⟨items, rfl, hitems⟩
    refine ⟨_, rfl, .data hword ?_ (hpieces.symm ▸ hitems)⟩
    intro hempty
    rw [← hpieces, hempty] at hitems
    obtain ⟨i, _, hi, -, -⟩ := List.forall₂_cons_left_iff.mp hitems
    exact i.not_reads_nil hi

theorem exists_items (ps : List (List Char)) :
    (∃ items, List.Forall₂ Item.Reads (ps.map trim) items) ↔
      ∀ p ∈ ps, ∃ i, Item.Reads (trim p) i := by
  induction ps with
  | nil => exact ⟨fun _ => nofun, fun _ => ⟨[], .nil⟩⟩
  | cons p ps ih =>
    rw [List.forall_mem_cons, ← ih]
    constructor
    · rintro ⟨_, hitems⟩
      obtain ⟨i, items, hi, hitems, -⟩ := List.forall₂_cons_left_iff.mp hitems
      exact ⟨⟨i, hi⟩, items, hitems⟩
    · rintro ⟨⟨i, hi⟩, items, hitems⟩
      exact ⟨i :: items, .cons hi hitems⟩

theorem DataLine.statement_iff (h : DataLine l body) (hcut : IsCut ',' body ps) :
    (∃ s, (Line.ofText l).statement = .ok s) ↔ ∀ p ∈ ps, ∃ i, Item.Reads (trim p) i := by
  rw [← exists_items]
  constructor
  · rintro ⟨s, hs⟩
    obtain ⟨clause, hclause, -⟩ := Line.statement_eq_ok.mp hs
    obtain ⟨items, -, hitems⟩ := (h.holds_iff hcut).mp hclause
    exact ⟨items, hitems⟩
  · rintro ⟨items, hitems⟩
    have hclause := (h.holds_iff hcut).mpr ⟨items, rfl, hitems⟩
    exact ⟨_, Line.statement_eq_ok.mpr ⟨_, hclause, rfl⟩⟩

theorem DataLine.exists_words {source : List Char} {ws : List UInt16}
    {before after : List (List Char)} (h : DataLine l body) (hcut : IsCut ',' body ps)
    (hws : assemble source = .ok ws) (hlines : lines source = before ++ l :: after) :
    ∃ es p items, List.Forall₂ Entry.Reads (lines source) es ∧ Occupy before p ∧
      List.Forall₂ Item.Reads (ps.map trim) items ∧
      items.flatMap (Item.words (address es)) <+: ws.drop p := by
  obtain ⟨es, hreads, -, rfl⟩ := exists_of_assemble hws
  obtain ⟨fs, e, gs, rfl, hbefore, he⟩ := exists_entry hreads hlines
  obtain ⟨items, hclause, hitems⟩ := (h.holds_iff hcut).mp he.2
  have hwords := words_prefix_image fs gs e
  rw [Entry.words, hclause] at hwords
  exact ⟨_, size fs, items, hreads, ⟨fs, hbefore, rfl⟩, hitems, hwords⟩

end Reading

/-- A data line holds the items between its commas outside quotations.  It is accepted exactly if
each of them is a number in range, a label or a text between two marks, and in an assembled program
the words of the items, one after another, are the words of the line. -/
theorem data_lines (l : List Char) :
    (∀ word rest, splitWord (Line.ofText l).body = (word, rest) → OpensData word → rest ≠ [] →
      ∃ body ps, DataLine l body ∧ trim body = rest ∧ IsCut ',' body ps) ∧
    ∀ body ps, DataLine l body → IsCut ',' body ps →
      ((∃ s, (Line.ofText l).statement = .ok s) ↔ ∀ p ∈ ps, ∃ i, Item.Reads (trim p) i) ∧
      ∀ source ws before after, assemble source = .ok ws → lines source = before ++ l :: after →
        ∃ es p items, List.Forall₂ Entry.Reads (lines source) es ∧ Occupy before p ∧
          List.Forall₂ Item.Reads (ps.map trim) items ∧
          items.flatMap (Item.words (address es)) <+: ws.drop p := by
  refine ⟨fun word rest hsplit hword hrest => ?_, fun body ps hl hcut => ?_⟩
  · obtain ⟨body, hl, htrim⟩ := exists_dataLine hsplit hword hrest
    obtain ⟨ps, hcut⟩ := exists_isCut ',' body
    exact ⟨body, ps, hl, htrim, hcut⟩
  · exact ⟨hl.statement_iff hcut, fun source ws before after hws hlines =>
      hl.exists_words hcut hws hlines⟩

/-! ### Programs of one line -/

theorem DataLine.assemble_eq {l body : List Char} {ps : List (List Char)} {items : List Item}
    (h : DataLine l body) (hcut : IsCut ',' body ps)
    (hitems : List.Forall₂ Item.Reads (ps.map trim) items) (hlabel : (Line.ofText l).label = none)
    (hline : '\n' ∉ l) (hreferences : items.flatMap Item.references = [])
    (hsize : (items.map Item.size).sum < 65536) :
    assemble l = .ok (image [⟨none, some (.data items)⟩]) := by
  have hne : l ≠ [] := by
    rintro rfl
    obtain ⟨-, -, -, hbefore⟩ := h
    have hnil := hbefore.before_eq
    simp [before, quoted] at hnil
  have hreads : List.Forall₂ Entry.Reads (lines l) [⟨none, some (.data items)⟩] := by
    rw [lines_of_not_mem hline hne]
    exact .cons ⟨.none hlabel, (h.holds_iff hcut).mpr ⟨items, rfl, hitems⟩⟩ .nil
  apply assemble_of_wellFormed hreads
  apply wellFormed_of_size_lt
  · exact List.nodup_nil
  · intro r hr
    obtain ⟨e, he, hkey⟩ := exists_of_mem_referencesFrom hr
    obtain rfl := List.mem_singleton.mp he
    rw [Entry.references, Option.map_some, Option.getD_some, Clause.references, hreferences] at hkey
    cases hkey
  · simpa [size, Entry.size, Clause.size] using hsize

theorem opening_dat : Opening "DAT".toList none "DAT".toList :=
  @Opening.plain _ [] (by decide) (by decide) nofun (by decide)

/-- A text with a comma, a semicolon, a colon and a blank, a negative number, and a comment. -/
theorem data_lines_punctuation :
    assemble "DAT \"a,b;c: d\", -1 ; \"".toList =
        .ok [0x61, 0x2C, 0x62, 0x3B, 0x63, 0x3A, 0x20, 0x64, 0xFFFF] ∧
      ∃ es p items, Occupy [] p ∧
        List.Forall₂ Item.Reads ["\"a,b;c: d\"".toList, "-1".toList] items ∧
        items.flatMap (Item.words (address es)) <+:
          ([0x61, 0x2C, 0x62, 0x3B, 0x63, 0x3A, 0x20, 0x64, 0xFFFF] : List UInt16).drop p := by
  have htext : ∀ {c : Char}, c ≠ '"' → ¬Exposes c "\"a,b;c: d\"".toList := fun hc =>
    not_exposes_quotation hc (by decide : '"' ∉ "a,b;c: d".toList)
  have hcut : IsCut ',' "\"a,b;c: d\", -1 ".toList ["\"a,b;c: d\"".toList, " -1 ".toList] :=
    .cons (htext (by decide)) (by decide) (.last (not_exposes_of_not_mem (by decide)))
  have hcode : ¬Exposes ';' "DAT \"a,b;c: d\", -1 ".toList := by decide
  have hdata : DataLine "DAT \"a,b;c: d\", -1 ; \"".toList "\"a,b;c: d\", -1 ".toList :=
    @DataLine.intro _ _ _ _ _ ' ' opening_dat (by decide) rfl
      ⟨hcode, .inr ⟨by decide, " \"".toList, by decide⟩⟩
  have hlines : lines "DAT \"a,b;c: d\", -1 ; \"".toList =
      [] ++ "DAT \"a,b;c: d\", -1 ; \"".toList :: [] := by decide
  have hreads : List.Forall₂ Item.Reads ["\"a,b;c: d\"".toList, "-1".toList]
      [.text "a,b;c: d".toList, .term (.number (-1))] :=
    .cons (.text rfl) (.cons (.term (quotation?_eq_none.mp rfl)
      (.number rfl rfl (by decide) (by decide))) .nil)
  have hws := hdata.assemble_eq hcut hreads rfl (by decide) rfl (by decide)
  obtain ⟨es, p, items, -, hp, hitems, hwords⟩ :=
    ((data_lines _).2 _ _ hdata hcut).2 _ _ [] [] hws hlines
  exact ⟨hws, es, p, items, hp, hitems, hwords⟩

/-- All items of data lines are numbers or labels, or texts of characters that are words, without
marks. -/
def HoldsWellFormedItems (source : List Char) : Prop :=
  ∀ {ws : List UInt16} {before after : List (List Char)} {l body : List Char}
    {ps : List (List Char)}, assemble source = .ok ws → lines source = before ++ l :: after →
    DataLine l body → IsCut ',' body ps → ∀ p ∈ ps, (∃ t, Term.Reads (trim p) t) ∨
      ∃ cs, trim p = '"' :: cs ++ ['"'] ∧ '"' ∉ cs ∧ ∀ c ∈ cs, c.toNat < 65536

section OneText

variable {cs : List Char}

/-- A data line with one text. -/
def textLine (cs : List Char) : List Char := "DAT".toList ++ ' ' :: ('"' :: cs ++ ['"'])

theorem isBefore_textLine (hcode : ¬Exposes ';' ('"' :: cs ++ ['"'])) :
    IsBefore ';' (textLine cs) (textLine cs) := by
  refine ⟨?_, .inl rfl⟩
  rw [textLine, List.append_cons, exposes_append (by decide), not_or]
  exact ⟨by decide, hcode⟩

theorem dataLine_textLine (hcode : ¬Exposes ';' ('"' :: cs ++ ['"'])) :
    DataLine (textLine cs) ('"' :: cs ++ ['"']) :=
  .intro opening_dat (by decide) rfl (isBefore_textLine hcode)

theorem assemble_textLine (hcut : ¬Exposes ',' ('"' :: cs ++ ['"']))
    (hcode : ¬Exposes ';' ('"' :: cs ++ ['"'])) (hline : '\n' ∉ textLine cs)
    (hsize : cs.length < 65536) :
    assemble (textLine cs) = .ok (cs.map fun c => .ofNat c.toNat) := by
  have hitems : List.Forall₂ Item.Reads (['"' :: cs ++ ['"']].map trim) [.text cs] :=
    .cons (.text (trim_enclosed (by decide) (by decide) cs)) .nil
  have hlabel : (Line.ofText (textLine cs)).label = none := by
    rw [opening_dat.ofText (head_cons rfl _) (isBefore_textLine hcode).before_eq]
  have himage : image [⟨none, some (.data [.text cs])⟩] = cs.map fun c => .ofNat c.toNat := by
    simp [image, Entry.words, Clause.words, Item.words]
  rw [← himage]
  exact (dataLine_textLine hcode).assemble_eq (.last hcut) hitems hlabel hline rfl
    (by simpa [Item.size])

theorem not_holdsWellFormedItems (hcut : ¬Exposes ',' ('"' :: cs ++ ['"']))
    (hcode : ¬Exposes ';' ('"' :: cs ++ ['"'])) (hline : '\n' ∉ cs) (hsize : cs.length < 65536)
    (hbad : '"' ∈ cs ∨ ∃ c ∈ cs, 65536 ≤ c.toNat) :
    assemble (textLine cs) = .ok (cs.map fun c => .ofNat c.toNat) ∧
      ¬HoldsWellFormedItems (textLine cs) := by
  have hfeed : '\n' ∉ textLine cs := by
    simp [textLine, hline]
  have hws := assemble_textLine hcut hcode hfeed hsize
  have hlines : lines (textLine cs) = [] ++ textLine cs :: [] :=
    lines_of_not_mem hfeed (by simp [textLine])
  have htrim : trim ('"' :: cs ++ ['"']) = '"' :: cs ++ ['"'] :=
    trim_enclosed (by decide) (by decide) cs
  refine ⟨hws, fun hall => ?_⟩
  rcases hall hws hlines (dataLine_textLine hcode) (.last hcut) _ (List.mem_singleton_self _) with
    ⟨t, ht⟩ | ⟨cs', heq, hmark, hwords⟩
  · rw [htrim] at ht
    cases ht with
    | number hnumeral =>
      rw [htrim] at hnumeral
      cases hnumeral
    | label _ hid =>
      rw [htrim] at hid
      cases hid
  · rw [htrim] at heq
    obtain rfl : cs = cs' := by simpa using heq
    rcases hbad with hbad | ⟨c, hc, hlarge⟩
    · exact hmark hbad
    · have hsmall := hwords c hc
      omega

end OneText

/-- A character beyond the words is cut down to a word, and two texts without a comma between them
are one text. -/
theorem data_items_malformed :
    (assemble "DAT \"😀\"".toList = .ok [0xF600] ∧
      ¬HoldsWellFormedItems "DAT \"😀\"".toList) ∧
    assemble "DAT \"a\" \"b\"".toList = .ok [0x61, 0x22, 0x20, 0x22, 0x62] ∧
      ¬HoldsWellFormedItems "DAT \"a\" \"b\"".toList :=
  ⟨@not_holdsWellFormedItems "😀".toList (by decide) (by decide) (by decide) (by decide)
      (.inr ⟨'😀', by decide, by decide⟩),
    @not_holdsWellFormedItems "a\" \"b".toList (by decide) (by decide) (by decide) (by decide)
      (.inl (by decide))⟩

end Dcpu16.Assembly
