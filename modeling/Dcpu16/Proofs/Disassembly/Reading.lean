import Mathlib.Data.List.TakeWhile
import Dcpu16.Proofs.Assembly.Entry
import Dcpu16.Proofs.Disassembly.Characters

/-! The assembler reads the text of an instruction as that instruction.  A number is read the same
whether it was written for an extension word or for an embedded literal. -/

namespace Dcpu16

open Assembly

/-! ### Upper case -/

theorem upper_eq_of_subset {cs : List Char} (h : cs ⊆ textChars) :
    Text.upper cs = cs.map Char.toUpper := by
  have hascii : textChars.all (·.toNat < 0x80) = true := by decide
  refine Text.upper_ascii fun c hc => ?_
  simpa using List.all_eq_true.mp hascii c (h hc)

theorem Register.upper_name (r : Register) : Text.upper r.name.toList = r.name.toList := by
  cases r <;> decide

theorem Opcode.ofMnemonic?_upper (op : Opcode) :
    ofMnemonic? (Text.upper op.mnemonic.toList) = some op := by
  cases op <;> decide

/-! ### Numbers -/

/-- The text is a prefix of numbers with hexadecimal digits behind it, in upper case. -/
def IsHex (n : Nat) (text : List Char) : Prop :=
  ∃ ds, text = '0' :: 'X' :: ds ∧ ds ⊆ Text.hexDigits.map Char.toUpper ∧
    Text.readNat? 16 ds = some n

namespace IsHex

variable {n : Nat} {text : List Char}

theorem of_digits {ds : List Char} (hds : ds ⊆ Text.hexDigits)
    (hn : Text.readNat? 16 ds = some n) : IsHex n (Text.upper ('0' :: 'x' :: ds)) := by
  have hchars : '0' :: 'x' :: ds ⊆ textChars := by
    rw [List.cons_subset, List.cons_subset]
    exact ⟨by decide, by decide, List.Subset.trans hds hexDigits_subset⟩
  refine ⟨ds.map Char.toUpper, ?_, List.map_subset _ hds, ?_⟩
  · rw [upper_eq_of_subset hchars]
    rfl
  · rw [Text.readNat?_toUpper, hn]

theorem wordText (w : UInt16) : IsHex w.toNat (Text.upper (wordText w).toList) := by
  rw [toList_wordText]
  exact of_digits (Text.hex4_subset _) (Text.readNat?_hex4 _)

theorem literal (v w : UInt16) :
    IsHex v.toNat (Text.upper ((Operand.literal v).text w).toList) := by
  rw [Operand.text_literal]
  exact of_digits (Text.hex_subset _) (Text.readNat?_hex _)

theorem subset (h : IsHex n text) : text ⊆ textChars := by
  obtain ⟨ds, rfl, hds, -⟩ := h
  have hdigits : Text.hexDigits.map Char.toUpper ⊆ textChars := by decide
  rw [List.cons_subset, List.cons_subset]
  exact ⟨by decide, by decide, List.Subset.trans hds hdigits⟩

theorem trim (h : IsHex n text) : Text.trim text = text := (isSolid_of_subset h.subset).trim

theorem plus_not_mem (h : IsHex n text) : '+' ∉ text := by
  obtain ⟨ds, rfl, hds, -⟩ := h
  intro hmem
  have hall : '0' :: 'X' :: ds ⊆ '0' :: 'X' :: Text.hexDigits.map Char.toUpper :=
    List.cons_subset_cons _ (List.cons_subset_cons _ hds)
  exact absurd (hall hmem) (by decide)

theorem reads (h : IsHex n text) (hn : n ≤ 0xFFFF) : Term.Reads text (.number n) := by
  have htrim := h.trim
  obtain ⟨ds, rfl, hds, hread⟩ := h
  have habsent {c : Char} (hc : c ∉ Text.hexDigits.map Char.toUpper) : c ∉ ds :=
    fun hmem => hc (hds hmem)
  have hsigned : Text.readSigned? 16 ds = some (n : Int) := by
    rw [Text.readSigned?_eq (habsent (by decide)) (habsent (by decide)), hread]
    rfl
  have hnumber : readNumber? 16 ds = some (n : Int) := by
    rw [readNumber?, hsigned, Option.filter_some, if_pos]
    rw [decide_eq_true_eq]
    omega
  refine .number ?_ hnumber (by omega) (by omega)
  rw [htrim]
  rfl

theorem ofName? (h : IsHex n text) : Register.ofName? text = none := by
  have htrim := h.trim
  obtain ⟨ds, rfl, -, -⟩ := h
  rw [Register.ofName?, htrim]
  rfl

theorem bare (h : IsHex n text) : Form.Bare text := by
  obtain ⟨ds, rfl, -, -⟩ := h
  have hnamed : ∀ p ∈ Form.named, p.1.toList.head? ≠ some '0' := by decide
  constructor
  · intro inner hinner
    simp at hinner
  · intro f hf
    refine hnamed _ hf ?_
    rw [String.toList_ofList]
    rfl

end IsHex

/-! ### Operands -/

/-- The operand as it is written, with its extension word. -/
def Operand.form (x : Operand) (w : UInt16) : Form :=
  match x with
  | register r => .register r
  | indirect r => .indirect r
  | offset r => .offset (.number w.toNat) r
  | pop => .pop
  | peek => .peek
  | push => .push
  | sp => .sp
  | pc => .pc
  | overflow => .overflow
  | nextCell => .cell (.number w.toNat)
  | next => .term (.number w.toNat)
  | literal v => .term (.number v.toNat)

theorem toNat_le_word (w : UInt16) : w.toNat ≤ 0xFFFF := by
  have := w.toNat_lt
  omega

theorem Register.plus_not_mem_name (r : Register) : '+' ∉ r.name.toList := by
  cases r <;> decide

theorem Operand.reads_text (x : Operand) (w : UInt16) :
    Form.Reads (x.text w).toList (x.form w) := by
  have hw := toNat_le_word w
  cases x with
  | register r =>
    have hbare : Form.Bare r.name.toList := Form.bare_iff.mpr (by cases r <;> decide)
    have hupper := r.upper_name
    refine .register ?_ ?_
    · rwa [← hupper] at hbare
    · show Register.ofName? (Text.upper r.name.toList) = some r
      rw [hupper, Register.ofName?_name]
  | indirect r =>
    refine .address ?_ (.indirect r.plus_not_mem_name r.ofName?_name)
    rw [text_indirect, upper_bracketed, r.upper_name]
  | offset r =>
    have hhex := IsHex.wordText w
    refine .address ?_ (.offsetBefore rfl hhex.plus_not_mem hhex.ofName? r.ofName?_name
      (hhex.reads hw))
    rw [text_offset, upper_bracketed, Text.upper_append, Text.upper_cons, r.upper_name]
    rfl
  | nextCell =>
    have hhex := IsHex.wordText w
    refine .address ?_ (.cell hhex.plus_not_mem hhex.ofName? (hhex.reads hw))
    rw [text_nextCell, upper_bracketed]
  | next =>
    have hhex := IsHex.wordText w
    exact .term hhex.bare hhex.ofName? (hhex.reads hw)
  | literal v =>
    have hhex := IsHex.literal v w
    exact .term hhex.bare hhex.ofName? (hhex.reads (toNat_le_word v))
  | _ =>
    apply Form.Reads.named
    simp only [text, form]
    decide

/-! ### Lines -/

theorem Text.before_of_not_mem {c : Char} {cs : List Char} (h : c ∉ cs) :
    Text.before c cs = cs := by
  have hall : ∀ p ∈ Text.quoted cs, (p.2 || p.1 != c) = true := by
    intro p hp
    have hmem : p.1 ∈ cs := by
      rw [← Text.map_fst_quotedFrom false cs]
      exact List.mem_map_of_mem hp
    have hne : p.1 ≠ c := fun heq => h (heq ▸ hmem)
    simp [hne]
  rw [Text.before, List.takeWhile_eq_self_iff.mpr hall]
  exact Text.map_fst_quotedFrom false cs

/-- A line with neither label nor comment is a statement as a whole. -/
theorem Assembly.Line.ofText_eq {text : List Char} (hcomment : ';' ∉ text) (hlabel : ':' ∉ text)
    (htrim : Text.trim text = text) : Line.ofText text = ⟨none, text⟩ := by
  have hcode : Text.trim (Text.before ';' text) = text := by
    rw [Text.before_of_not_mem hcomment, htrim]
  have hhead : ∀ rest, text ≠ ':' :: rest := by
    rintro rest rfl
    exact hlabel List.mem_cons_self
  have hcolon : text.contains ':' = false := by simpa using hlabel
  -- `hhead` rules out the first case of the match.
  simp only [Line.ofText, hcode, hcolon]
  rfl

namespace Instruction

/-- The operands of an instruction's text. -/
def operands (i : Instruction) (extension : List UInt16) : List Char :=
  (i.a.text (wordA extension)).toList ++ ',' :: ' ' :: (i.b.text (i.wordB extension)).toList

/-- An instruction as it is written, with its extension words. -/
def clause (i : Instruction) (extension : List UInt16) : Clause :=
  .instruction i.opcode (i.a.form (wordA extension)) (i.b.form (i.wordB extension))

variable (i : Instruction) (extension : List UInt16)

theorem trim_operands : Text.trim (i.operands extension) = i.operands extension := by
  have ha := isSolid_of_subset (i.a.text_subset (wordA extension))
  have hb := isSolid_of_subset (i.b.text_subset (i.wordB extension))
  have htrim := Text.trim_append_append ha hb (i.a.text_ne_nil _) (i.b.text_ne_nil _) [',', ' ']
  rwa [List.append_assoc] at htrim

theorem splitWord_text :
    splitWord (i.text extension).toList = (i.opcode.mnemonic.toList, i.operands extension) := by
  have hsolid : ∀ c ∈ i.opcode.mnemonic.toList, (!Text.isBlank c) = true := by
    intro c hc
    simpa using isSolid_of_subset i.opcode.mnemonic_subset c hc
  have hword : (i.text extension).toList.takeWhile (!Text.isBlank ·) =
      i.opcode.mnemonic.toList := by
    rw [toList_text, List.takeWhile_append_of_pos hsolid, List.takeWhile_cons_of_neg (by decide),
      List.append_nil]
  have hrest : (i.text extension).toList.dropWhile (!Text.isBlank ·) =
      ' ' :: i.operands extension := by
    rw [toList_text, List.dropWhile_append_of_pos hsolid, List.dropWhile_cons_of_neg (by decide)]
    rfl
  rw [splitWord, hword, hrest, Text.trim_cons (by decide), trim_operands]

theorem splitOn_operands : ((i.operands extension).splitOn ',').map Text.trim =
    [(i.a.text (wordA extension)).toList, (i.b.text (i.wordB extension)).toList] := by
  have ha := i.a.text_subset (wordA extension)
  have hb := i.b.text_subset (i.wordB extension)
  have hcomma : ',' ∉ textChars := by decide
  have hlast : ',' ∉ ' ' :: (i.b.text (i.wordB extension)).toList := by
    rw [List.mem_cons, not_or]
    exact ⟨by decide, fun h => hcomma (hb h)⟩
  rw [operands, List.splitOn_append_cons_self_of_not_mem (fun h => hcomma (ha h)),
    List.splitOn_eq_singleton hlast, List.map_cons, List.map_singleton,
    (isSolid_of_subset ha).trim, Text.trim_cons (by decide), (isSolid_of_subset hb).trim]

theorem trim_text : Text.trim (i.text extension).toList = (i.text extension).toList := by
  have hop := isSolid_of_subset i.opcode.mnemonic_subset
  have hb := isSolid_of_subset (i.b.text_subset (i.wordB extension))
  have hne : i.opcode.mnemonic.toList ≠ [] := by
    cases i.opcode <;> decide
  have htrim := Text.trim_append_append hop hb hne (i.b.text_ne_nil _)
    (' ' :: ((i.a.text (wordA extension)).toList ++ [',', ' ']))
  rw [toList_text]
  simpa using htrim

theorem reads_text : Entry.Reads (i.text extension).toList ⟨none, some (i.clause extension)⟩ := by
  have hall := i.text_subset extension
  have hline : Line.ofText (i.text extension).toList = ⟨none, (i.text extension).toList⟩ :=
    Line.ofText_eq (fun h => absurd (hall h) (by decide)) (fun h => absurd (hall h) (by decide))
      (i.trim_text extension)
  have hclause : Clause.Reads (i.text extension).toList (i.clause extension) :=
    .instruction (i.splitWord_text extension) i.opcode.ofMnemonic?_upper
      (i.splitOn_operands extension) (i.a.text_ne_nil _) (i.b.text_ne_nil _)
      (i.a.reads_text _) (i.b.reads_text _)
  have hne : (i.text extension).toList ≠ [] := by
    simp [toList_text]
  rw [Entry.Reads, hline]
  exact ⟨.none rfl, .some hne hclause⟩

end Instruction

end Dcpu16
