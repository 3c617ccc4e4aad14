import Dcpu16.Disassembly.Text
import Dcpu16.Proofs.Text.Lines
import Dcpu16.Proofs.Text.Radix
import Dcpu16.Proofs.Text.Words

/-! The characters of an instruction's text.  None of them ends a line or opens a comment, and
operands hold neither blanks nor commas, so the text can be taken apart again. -/

namespace Dcpu16

/-- The characters of mnemonics and operands. -/
def textChars : List Char := "0123456789abcdefxABCDEFGHIJKLMNOPQRSTUVWXYZ[]+".toList

theorem hexDigits_subset : Text.hexDigits ⊆ textChars := by decide

theorem isSolid_of_subset {cs : List Char} (h : cs ⊆ textChars) : Text.IsSolid cs := by
  have hall : textChars.all (!Text.isBlank ·) = true := by decide
  intro c hc
  simpa using List.all_eq_true.mp hall c (h hc)

theorem Register.name_subset (r : Register) : r.name.toList ⊆ textChars := by
  cases r <;> decide

theorem Opcode.mnemonic_subset (op : Opcode) : op.mnemonic.toList ⊆ textChars := by
  cases op <;> decide

theorem toList_wordText (w : UInt16) :
    (wordText w).toList = '0' :: 'x' :: (Text.hex4 w.toNat).toList := by
  simp [wordText]

theorem wordText_subset (w : UInt16) : (wordText w).toList ⊆ textChars := by
  have hdigits := List.Subset.trans (Text.hex4_subset w.toNat) hexDigits_subset
  rw [toList_wordText, List.cons_subset, List.cons_subset]
  exact ⟨by decide, by decide, hdigits⟩

namespace Operand

theorem text_indirect (r : Register) (w : UInt16) :
    ((indirect r).text w).toList = '[' :: r.name.toList ++ [']'] := by
  simp [text, toString]

theorem text_offset (r : Register) (w : UInt16) :
    ((offset r).text w).toList = '[' :: ((wordText w).toList ++ '+' :: r.name.toList) ++ [']'] := by
  simp [text, toString]

theorem text_nextCell (w : UInt16) :
    (nextCell.text w).toList = '[' :: (wordText w).toList ++ [']'] := by
  simp [text, toString]

theorem text_literal (v w : UInt16) :
    ((literal v).text w).toList = '0' :: 'x' :: (Text.hex v.toNat).toList := by
  simp [text]

theorem text_ne_nil (x : Operand) (w : UInt16) : (x.text w).toList ≠ [] := by
  cases x with
  | register r =>
    show r.name.toList ≠ []
    cases r <;> decide
  | indirect r => simp [text_indirect]
  | offset r => simp [text_offset]
  | nextCell => simp [text_nextCell]
  | next => simp [text, toList_wordText]
  | literal v => simp [text_literal]
  | _ => simp [text]

theorem text_subset (x : Operand) (w : UInt16) : (x.text w).toList ⊆ textChars := by
  have hopen : '[' ∈ textChars := by decide
  have hclose : [']'] ⊆ textChars := by decide
  have hplus : '+' ∈ textChars := by decide
  have hword := wordText_subset w
  cases x with
  | register r => exact r.name_subset
  | indirect r =>
    rw [text_indirect, List.append_subset, List.cons_subset]
    exact ⟨⟨hopen, r.name_subset⟩, hclose⟩
  | offset r =>
    rw [text_offset, List.append_subset, List.cons_subset, List.append_subset, List.cons_subset]
    exact ⟨⟨hopen, hword, hplus, r.name_subset⟩, hclose⟩
  | nextCell =>
    rw [text_nextCell, List.append_subset, List.cons_subset]
    exact ⟨⟨hopen, hword⟩, hclose⟩
  | next => exact hword
  | literal v =>
    have hdigits := List.Subset.trans (Text.hex_subset v.toNat) hexDigits_subset
    rw [text_literal, List.cons_subset, List.cons_subset]
    exact ⟨by decide, by decide, hdigits⟩
  | _ =>
    simp only [text]
    decide

end Operand

namespace Instruction

/-- The extension word that an instruction's text shows for operand A. -/
def wordA (extension : List UInt16) : UInt16 := extension.headD 0

/-- The extension word that an instruction's text shows for operand B. -/
def wordB (i : Instruction) (extension : List UInt16) : UInt16 :=
  (extension.drop i.a.extraWords).headD 0

theorem toList_text (i : Instruction) (extension : List UInt16) :
    (i.text extension).toList = i.opcode.mnemonic.toList ++ ' ' ::
      ((i.a.text (wordA extension)).toList ++ ',' :: ' ' ::
        (i.b.text (i.wordB extension)).toList) := by
  simp [text_eq, wordA, wordB, toString]

theorem text_subset (i : Instruction) (extension : List UInt16) :
    (i.text extension).toList ⊆ ' ' :: ',' :: textChars := by
  have hwide : textChars ⊆ ' ' :: ',' :: textChars := fun c hc => .tail _ (.tail _ hc)
  have hop := List.Subset.trans i.opcode.mnemonic_subset hwide
  have ha := List.Subset.trans (i.a.text_subset (wordA extension)) hwide
  have hb := List.Subset.trans (i.b.text_subset (i.wordB extension)) hwide
  simp only [toList_text, List.append_subset, List.cons_subset]
  exact ⟨hop, by decide, ha, by decide, by decide, hb⟩

theorem isLine_text (i : Instruction) (extension : List UInt16) :
    Text.IsLine (i.text extension).toList := by
  have hall := i.text_subset extension
  exact ⟨fun h => absurd (hall h) (by decide), fun h => absurd (hall h) (by decide)⟩

end Instruction

end Dcpu16
