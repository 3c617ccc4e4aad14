import Mathlib.Logic.Relation
import Dcpu16.Proofs.Assembly.Boundaries
import Dcpu16.Proofs.Assembly.Edits
import Dcpu16.Proofs.Assembly.TwoPass

/-! Sources that differ in their layout only are the same program: lines may be edited, and lines
without label and statement may come and go. -/

namespace Dcpu16.Assembly

open Layout Text

/-- A line of blanks, or of blanks and a comment. -/
def IsVoid (l : List Char) : Prop :=
  IsGap l ∨ ∃ gap remark, IsGap gap ∧ l = gap ++ ';' :: remark

/-- One edit of a source text: another layout of a line, or a further line without a program. -/
inductive Edit (source source' : List Char) : Prop
  | line {before after : List (List Char)} {l l' : List Char} :
      source.splitOn '\n' = before ++ l :: after → source'.splitOn '\n' = before ++ l' :: after →
      LineEdit l l' → Edit source source'
  | insert {before after : List (List Char)} {l : List Char} :
      source.splitOn '\n' = before ++ after → source'.splitOn '\n' = before ++ l :: after →
      IsVoid l → Edit source source'

/-- The lines can be laid out as a program with these words. -/
def Assembles (texts : List (List Char)) (ws : List UInt16) : Prop :=
  ∃ es, List.Forall₂ Entry.Reads texts es ∧ WellFormed es ∧ image es = ws

theorem assemble_eq_ok {source : List Char} {ws : List UInt16} :
    assemble source = .ok ws ↔ Assembles (lines source) ws := by
  constructor
  · exact exists_of_assemble
  · rintro ⟨es, hreads, hes, rfl⟩
    exact assemble_of_wellFormed hreads hes

/-- The lines are read alike. -/
def SameReading (l l' : List Char) : Prop := ∀ e, Entry.Reads l e ↔ Entry.Reads l' e

theorem Assembles.of_sameReading {texts texts' : List (List Char)} {ws : List UInt16}
    (hsame : List.Forall₂ SameReading texts texts') (h : Assembles texts ws) :
    Assembles texts' ws := by
  obtain ⟨es, hreads, hes, himage⟩ := h
  exact ⟨es, forall₂_of_forall₂_imp (hsame.imp fun l l' hl e => (hl e).mp) hreads, hes, himage⟩

theorem assembles_congr {texts texts' : List (List Char)} {ws : List UInt16}
    (hsame : List.Forall₂ SameReading texts texts') :
    Assembles texts ws ↔ Assembles texts' ws :=
  ⟨.of_sameReading hsame, .of_sameReading (hsame.flip.imp fun _ _ hl e => (hl e).symm)⟩

/-! ### Void lines -/

theorem IsVoid.reads {l : List Char} (h : IsVoid l) (e : Entry) :
    Entry.Reads l e ↔ e = ⟨none, none⟩ := by
  have hgap {gap : List Char} (hgap : IsGap gap) :
      trim (before ';' gap) = trim (before ';' []) := by
    have htrim := @trim_before_gap ';' gap [] (by decide) hgap nofun []
    rwa [List.append_nil, List.append_nil] at htrim
  have hline : Line.ofText l = ⟨none, []⟩ := by
    have hnil : Line.ofText [] = ⟨none, []⟩ := rfl
    rw [← hnil]
    apply Line.ofText_congr
    rcases h with hl | ⟨gap, remark, hl, rfl⟩
    · exact hgap hl
    · rw [before_append_cons (balanced_of_not_mem hl.mark_not_mem), hgap hl]
  rw [Entry.Reads, hline]
  constructor
  · rintro ⟨hlabel, hclause⟩
    obtain ⟨label, clause⟩ := e
    cases hlabel with
    | none => cases hclause with
      | none => rfl
      | some hne => exact absurd rfl hne
    | some hsome => cases hsome
  · rintro rfl
    exact ⟨.none rfl, .none rfl⟩

namespace Layout

/-- The entry of a line without label and statement. -/
def blank : Entry := ⟨none, none⟩

variable {es fs : List Entry}

theorem size_blank : size (es ++ blank :: fs) = size (es ++ fs) := by
  have hfirst : size (blank :: fs) = size fs := by
    simp [size, blank, Entry.size]
  rw [size_append, size_append, hfirst]

theorem labels_blank : labels (es ++ blank :: fs) = labels (es ++ fs) := by
  rw [labels_append, labels_append]
  rfl

theorem address?_blank (key : String) :
    address? (es ++ blank :: fs) key = address? (es ++ fs) key := by
  have hfirst : address? (blank :: fs) key = address? fs key := by
    have hsize : Entry.size blank = 0 := rfl
    have hlabel : blank.label ≠ some key := (Option.some_ne_none key).symm
    rw [address?, if_neg hlabel, hsize]
    cases address? fs key with
    | none => rfl
    | some a => rw [Option.map_some, Nat.zero_add]
  rw [address?_append, address?_append, hfirst]

theorem image_blank : image (es ++ blank :: fs) = image (es ++ fs) := by
  have haddress : address (es ++ blank :: fs) = address (es ++ fs) := by
    funext key
    rw [address, address?_blank, address]
  rw [image, image, haddress, List.flatMap_append, List.flatMap_append]
  rfl

theorem defined_blank :
    (∀ r ∈ references (es ++ blank :: fs), r.1 ∈ labels (es ++ blank :: fs)) ↔
      ∀ r ∈ references (es ++ fs), r.1 ∈ labels (es ++ fs) := by
  rw [defined_iff, defined_iff, labels_blank]
  constructor
  · intro h e he
    refine h e ?_
    rcases List.mem_append.mp he with he | he
    · exact List.mem_append_left _ he
    · exact List.mem_append_right _ (List.mem_cons_of_mem _ he)
  · intro h e he
    rcases List.mem_append.mp he with he | he
    · exact h e (List.mem_append_left _ he)
    · rcases List.mem_cons.mp he with rfl | he
      · intro key hkey
        cases hkey
      · exact h e (List.mem_append_right _ he)

theorem wellFormed_blank : WellFormed (es ++ blank :: fs) ↔ WellFormed (es ++ fs) := by
  constructor
  · intro h
    refine ⟨⟨labels_blank ▸ h.nodup, fun key a ha => ?_⟩, defined_blank.mp h.defined, ?_⟩
    · exact h.near key a (by rw [address?_blank, ha])
    · exact size_blank ▸ h.fits
  · intro h
    refine ⟨⟨labels_blank.symm ▸ h.nodup, fun key a ha => ?_⟩, defined_blank.mpr h.defined, ?_⟩
    · rw [address?_blank] at ha
      exact h.near key a ha
    · exact size_blank.symm ▸ h.fits

end Layout

theorem assembles_void {before after : List (List Char)} {l : List Char} {ws : List UInt16}
    (h : IsVoid l) : Assembles (before ++ l :: after) ws ↔ Assembles (before ++ after) ws := by
  constructor
  · rintro ⟨_, hreads, hes, himage⟩
    obtain ⟨es, _, rfl, hbefore, hrest⟩ := forall₂_append_left.mp hreads
    obtain ⟨e, fs, he, hafter, rfl⟩ := List.forall₂_cons_left_iff.mp hrest
    obtain rfl := (h.reads e).mp he
    exact ⟨es ++ fs, List.rel_append hbefore hafter, wellFormed_blank.mp hes,
      image_blank.symm.trans himage⟩
  · rintro ⟨_, hreads, hes, himage⟩
    obtain ⟨es, fs, rfl, hbefore, hafter⟩ := forall₂_append_left.mp hreads
    exact ⟨es ++ blank :: fs, List.rel_append hbefore (.cons ((h.reads _).mpr rfl) hafter),
      wellFormed_blank.mpr hes, image_blank.trans himage⟩

/-! ### Line ends -/

theorem sameReading_dropReturn (l : List Char) : SameReading (dropReturn l) l := by
  intro e
  unfold dropReturn
  split
  · next hreturn =>
    obtain ⟨init, rfl⟩ := List.getLast?_eq_some_iff.mp hreturn
    rw [List.dropLast_concat]
    have hedit : LineEdit init (init ++ ['\r']) :=
      @LineEdit.margins [] ['\r'] init nofun (by decide)
    exact hedit.reads e
  · exact .rfl

/-- What ends a line does not count, nor does an empty line at the end. -/
theorem assembles_lines {source : List Char} {ws : List UInt16} :
    Assembles (lines source) ws ↔ Assembles (source.splitOn '\n') ws := by
  obtain ⟨init, last, hpieces⟩ : ∃ init last, source.splitOn '\n' = init ++ [last] :=
    ⟨_, _, (List.dropLast_append_getLast (List.splitOn_ne_nil '\n' source)).symm⟩
  have hinit : List.Forall₂ SameReading (init.map dropReturn) init :=
    List.forall₂_map_left_iff.mpr (List.forall₂_same.mpr fun l _ => sameReading_dropReturn l)
  simp only [lines, hpieces, List.dropLast_concat, List.getLast?_concat, Option.getD_some]
  split
  · next hempty =>
    have hvoid : IsVoid last := .inl (List.isEmpty_iff.mp hempty ▸ nofun)
    rw [assembles_void hvoid]
    exact assembles_congr (List.rel_append hinit .nil)
  · exact assembles_congr (List.rel_append hinit (.cons (fun _ => .rfl) .nil))

theorem Edit.assembles {source source' : List Char} (h : Edit source source') (ws : List UInt16) :
    Assembles (source.splitOn '\n') ws ↔ Assembles (source'.splitOn '\n') ws := by
  cases h with
  | line hsource hsource' hedit =>
    rw [hsource, hsource']
    exact assembles_congr (List.rel_append (forall₂_refl (fun _ _ => .rfl) _)
      (.cons hedit.reads (forall₂_refl (fun _ _ => .rfl) _)))
  | insert hsource hsource' hvoid =>
    rw [hsource, hsource', assembles_void hvoid]

/-- Sources that are related by edits of their layout are accepted alike and assembled to the same
words. -/
theorem assemble_eq_ok_of_edits {source source' : List Char}
    (h : Relation.EqvGen Edit source source') (ws : List UInt16) :
    assemble source = .ok ws ↔ assemble source' = .ok ws := by
  rw [assemble_eq_ok, assemble_eq_ok, assembles_lines, assembles_lines]
  induction h with
  | rel _ _ h => exact h.assembles ws
  | refl _ => exact .rfl
  | symm _ _ _ ih => exact ih.symm
  | trans _ _ _ _ _ ih ih' => exact ih.trans ih'

theorem LineEdit.edit {l l' : List Char} (h : LineEdit l l') (hl : '\n' ∉ l) (hl' : '\n' ∉ l')
    (rest : List Char) : Edit (l ++ '\n' :: rest) (l' ++ '\n' :: rest) :=
  @Edit.line _ _ [] _ _ _ (List.splitOn_append_cons_self_of_not_mem hl rest)
    (List.splitOn_append_cons_self_of_not_mem hl' rest) h

theorem assemble_loop : assemble ":loop SET [0x2000+I], [A]\nSET PC, loop".toList =
    .ok [0x2161, 0x2000, 0x7DC1, 0] := by
  have hlines : lines ":loop SET [0x2000+I], [A]\nSET PC, loop".toList =
      [":loop SET [0x2000+I], [A]".toList, "SET PC, loop".toList] := by decide
  have hcopy : Entry.Reads ":loop SET [0x2000+I], [A]".toList
      ⟨some "LOOP", some (.instruction .set (.offset (.number 0x2000) .i) (.indirect .a))⟩ := by
    have hlabel : Entry.Labels (Line.ofText ":loop SET [0x2000+I], [A]".toList) (some "LOOP") :=
      @Entry.Labels.some _ "loop".toList rfl rfl
    have hnumber : Term.Reads "0X2000".toList (.number 0x2000) :=
      .number rfl (by decide) (by decide) (by decide)
    have htarget : Form.Addresses "0X2000+I".toList (.offset (.number 0x2000) .i) :=
      .offsetBefore (rfl : _ = "0X2000".toList ++ '+' :: "I".toList) (by decide) rfl rfl hnumber
    have hsource : Form.Addresses "A".toList (.indirect .a) := .indirect (by decide) rfl
    exact ⟨hlabel, .some (by decide) (.instruction rfl rfl rfl (by decide) (by decide)
      (.address rfl htarget) (.address rfl hsource))⟩
  have hjump : Entry.Reads "SET PC, loop".toList
      ⟨none, some (.instruction .set .pc (.term (.label "LOOP")))⟩ := by
    have hname : Form.Reads "loop".toList (.term (.label "LOOP")) :=
      .term (Form.bare_iff.mpr ⟨rfl, rfl⟩) rfl (.label rfl rfl)
    exact ⟨.none rfl, .some (by decide)
      (.instruction rfl rfl rfl (by decide) (by decide) (.named (by decide)) hname)⟩
  have hreads := List.Forall₂.cons hcopy (.cons hjump .nil)
  rw [← hlines] at hreads
  exact assemble_of_wellFormed hreads (wellFormed_of_size_lt (by decide) (by decide) (by decide))

/-- A loop of two lines in another layout. -/
theorem assemble_eq_ok_of_edits_loop :
    Relation.EqvGen Edit ":loop SET [0x2000+I], [A]\nSET PC, loop".toList
        "; copy\nLoop:set [i + 0X2000], [a]; a word\nSET PC, loop".toList ∧
      (∀ ws, assemble ":loop SET [0x2000+I], [A]\nSET PC, loop".toList = .ok ws ↔
        assemble "; copy\nLoop:set [i + 0X2000], [a]; a word\nSET PC, loop".toList =
          .ok ws) ∧
      assemble "; copy\nLoop:set [i + 0X2000], [a]; a word\nSET PC, loop".toList =
        .ok [0x2161, 0x2000, 0x7DC1, 0] := by
  have hletters : LineEdit ":loop SET [0x2000+I], [A]".toList ":Loop set [0X2000+i], [a]".toList :=
    .letters (by decide) (by decide)
  have hlabel : LineEdit ":Loop set [0X2000+i], [a]".toList "Loop:set [0X2000+i], [a]".toList :=
    @LineEdit.label [] "Loop".toList "set [0X2000+i], [a]".toList _ _ nofun (by decide)
      (@Marks.leading _ _ [' '] (by decide) (by decide) (.inl nofun))
      (@Marks.trailing _ _ [] (by decide) (by decide) (by decide) (by decide) nofun)
  have hopening : Opening "set".toList (some "Loop".toList) "Loop:set".toList :=
    @Opening.marked _ [] _ _ (by decide) (by decide) nofun
      (@Marks.trailing _ _ [] (by decide) (by decide) (by decide) (by decide) nofun)
  have hcode : ¬OpensData "set".toList := by decide
  have hoperand {p q : List Char} (hp : ',' ∉ p) (hq : ',' ∉ q) (h : OperandEdit p q) :
      OperandsEdit "set".toList (p ++ ", [a]".toList) (q ++ ", [a]".toList) := by
    have hright : ", [a]".toList = ',' :: " [a]".toList := by decide
    have hedit := @OperandsEdit.operand _ [] ", [a]".toList [] [] p q hcode (.inl rfl)
      (.inr ⟨_, hright⟩) nofun nofun hp hq h
    simpa only [List.nil_append, List.append_nil] using hedit
  have hswap : LineEdit "Loop:set [0X2000+i], [a]".toList "Loop:set [i+0X2000], [a]".toList :=
    @LineEdit.operands _ _ "[0X2000+i], [a]".toList "[i+0X2000], [a]".toList _ ' ' hopening rfl
      (not_exposes_of_not_mem (by decide)) (not_exposes_of_not_mem (by decide))
      (hoperand (by decide) (by decide)
        (@OperandEdit.swap "0X2000".toList "i".toList (by decide) (by decide)))
  have hplus : LineEdit "Loop:set [i+0X2000], [a]".toList "Loop:set [i + 0X2000], [a]".toList :=
    @LineEdit.operands _ _ "[i+0X2000], [a]".toList "[i + 0X2000], [a]".toList _ ' ' hopening rfl
      (not_exposes_of_not_mem (by decide)) (not_exposes_of_not_mem (by decide))
      (hoperand (by decide) (by decide)
        (@OperandEdit.plus [' '] [' '] "i".toList "0X2000".toList (by decide) (by decide)
          fun x y h => absurd (h ▸ by simp : '+' ∈ "i".toList) (by decide)))
  have hcomment : LineEdit "Loop:set [i + 0X2000], [a]".toList
      "Loop:set [i + 0X2000], [a]; a word".toList := .comment " a word".toList (by decide)
  have hinsert : Edit "Loop:set [i + 0X2000], [a]; a word\nSET PC, loop".toList
      "; copy\nLoop:set [i + 0X2000], [a]; a word\nSET PC, loop".toList :=
    @Edit.insert _ _ [] ["Loop:set [i + 0X2000], [a]; a word".toList, "SET PC, loop".toList]
      "; copy".toList (by decide) (by decide) (.inr ⟨[], " copy".toList, nofun, rfl⟩)
  have hedits : Relation.EqvGen Edit ":loop SET [0x2000+I], [A]\nSET PC, loop".toList
      "; copy\nLoop:set [i + 0X2000], [a]; a word\nSET PC, loop".toList :=
    .trans _ _ _ (.rel _ _ (hletters.edit (by decide) (by decide) "SET PC, loop".toList)) <|
    .trans _ _ _ (.rel _ _ (hlabel.edit (by decide) (by decide) _)) <|
    .trans _ _ _ (.rel _ _ (hswap.edit (by decide) (by decide) _)) <|
    .trans _ _ _ (.rel _ _ (hplus.edit (by decide) (by decide) _)) <|
    .trans _ _ _ (.rel _ _ (hcomment.edit (by decide) (by decide) _)) (.rel _ _ hinsert)
  exact ⟨hedits, assemble_eq_ok_of_edits hedits,
    (assemble_eq_ok_of_edits hedits _).mp assemble_loop⟩

end Dcpu16.Assembly
