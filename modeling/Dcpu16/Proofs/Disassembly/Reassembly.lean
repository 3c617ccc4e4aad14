import Dcpu16.Proofs.Assembly.TwoPass
import Dcpu16.Proofs.Disassembly.Reading
import Dcpu16.Proofs.Machine.Decoding

/-! Disassembled programs assemble again.  The assembler embeds every small number in the
instruction word, so an extension word that a value code can hold is dropped; all else comes back as
it was. -/

namespace Dcpu16

open Assembly

/-! ### Operands -/

/-- The operand that a value code can hold in place of an extension word. -/
def Operand.embed (x : Operand) (w : UInt16) : Operand :=
  if x = next ∧ w ≤ 0x1F then literal w else x

/-- The extension word of an operand, if it has one. -/
def Operand.extension (x : Operand) (w : UInt16) : List UInt16 := List.replicate x.extraWords w

theorem ofNat_emod (w : UInt16) : UInt16.ofNat ((w.toNat : Int) % 65536).toNat = w := by
  have hw := w.toNat_lt
  have hmod : ((w.toNat : Int) % 65536).toNat = w.toNat := by omega
  rw [hmod, UInt16.ofNat_toNat]

theorem embeds_word (w : UInt16) : (Term.number w.toNat).Embeds ↔ w ≤ 0x1F := by
  have hw := w.toNat_lt
  have hword : w ≤ 0x1F ↔ w.toNat ≤ 0x1F := UInt16.le_iff_toNat_le
  rw [hword]
  show (w.toNat : Int) % 65536 ≤ 0x1F ↔ _
  omega

theorem Operand.le_of_fits {v : UInt16} (h : (literal v).Fits) : v ≤ 0x1F := by
  rw [UInt16.le_iff_toNat_le]
  exact Nat.le_of_lt_succ h

theorem Operand.operand_form {x : Operand} (hx : x.Fits) (w : UInt16) :
    (x.form w).operand = x.embed w := by
  cases x with
  | next =>
    simp only [form, Form.operand, embeds_word, ofNat_emod, embed, true_and]
  | literal v =>
    have hv := le_of_fits hx
    simp [form, Form.operand, embeds_word, ofNat_emod, embed, hv]
  | _ => simp [form, Form.operand, embed]

theorem Operand.extension_form {x : Operand} (hx : x.Fits) (w : UInt16)
    (address : String → UInt16) :
    (x.form w).extension address = (x.embed w).extension w := by
  cases x with
  | next =>
    by_cases hw : w ≤ 0x1F
    · simp [form, Form.extension, Form.extension?, embeds_word, embed, hw, extension, extraWords]
    · simp [form, Form.extension, Form.extension?, embeds_word, embed, hw, extension, extraWords,
        Term.word, ofNat_emod]
  | literal v =>
    have hv := le_of_fits hx
    simp [form, Form.extension, Form.extension?, embeds_word, embed, hv, extension, extraWords]
  | offset r =>
    simp [form, Form.extension, Form.extension?, embed, extension, extraWords, Term.word,
      ofNat_emod]
  | nextCell =>
    simp [form, Form.extension, Form.extension?, embed, extension, extraWords, Term.word,
      ofNat_emod]
  | _ => simp [form, Form.extension, Form.extension?, embed, extension, extraWords]

theorem Operand.references_form (x : Operand) (w : UInt16) : (x.form w).references = [] := by
  cases x with
  | next =>
    by_cases hw : w ≤ 0x1F <;>
      simp [form, Form.references, Form.extension?, embeds_word, hw, Term.references]
  | literal v =>
    by_cases hv : v ≤ 0x1F <;>
      simp [form, Form.references, Form.extension?, embeds_word, hv, Term.references]
  | _ => simp [form, Form.references, Form.extension?, Term.references]

theorem Operand.extension_headD {x : Operand} {ws : List UInt16} (h : x.extraWords ≤ ws.length) :
    x.extension (ws.headD 0) = ws.take x.extraWords := by
  have hx := x.extraWords_le
  cases ws with
  | nil =>
    have hnone : x.extraWords = 0 := by simpa using h
    simp [extension, hnone]
  | cons w ws =>
    obtain hnone | hone : x.extraWords = 0 ∨ x.extraWords = 1 := by omega
    · simp [extension, hnone]
    · simp [extension, hone]

/-! ### Instructions -/

/-- An instruction word with the extension words that it takes. -/
structure Coded where
  word : UInt16
  extension : List UInt16
  instruction : Instruction
  decodes : Instruction.decode word = .ok instruction
  complete : extension.length + 1 = instruction.size

namespace Coded

def words (c : Coded) : List UInt16 := c.word :: c.extension

/-- The line that the disassembler writes. -/
def text (c : Coded) : List Char := (c.instruction.text c.extension).toList

def wordA (c : Coded) : UInt16 := Instruction.wordA c.extension

def wordB (c : Coded) : UInt16 := c.instruction.wordB c.extension

/-- The words of the instruction with small next words embedded in the instruction word. -/
def canonical (c : Coded) : List UInt16 :=
  let a := c.instruction.a.embed c.wordA
  let b := c.instruction.b.embed c.wordB
  Instruction.encode ⟨c.instruction.opcode, a, b⟩ :: (a.extension c.wordA ++ b.extension c.wordB)

/-- No next word is small. -/
def IsCanonical (c : Coded) : Prop :=
  (c.instruction.a = .next → 0x1F < c.wordA) ∧ (c.instruction.b = .next → 0x1F < c.wordB)

def entry (c : Coded) : Entry := ⟨none, some (c.instruction.clause c.extension)⟩

theorem words_entry (c : Coded) (address : String → UInt16) :
    c.entry.words address = c.canonical := by
  obtain ⟨hfitsA, hfitsB⟩ := (Instruction.decode_eq_ok c.decodes).2
  simp only [entry, Entry.words, Instruction.clause, Option.map_some, Option.getD_some,
    Clause.words, Operand.operand_form hfitsA, Operand.operand_form hfitsB,
    Operand.extension_form hfitsA, Operand.extension_form hfitsB]
  rfl

theorem references_entry (c : Coded) : c.entry.references = [] := by
  simp [entry, Entry.references, Instruction.clause, Clause.references, Operand.references_form]

theorem extension_eq (c : Coded) :
    c.instruction.a.extension c.wordA ++ c.instruction.b.extension c.wordB = c.extension := by
  have hlength : c.extension.length = c.instruction.a.extraWords + c.instruction.b.extraWords := by
    have hcomplete := c.complete
    rw [Instruction.size] at hcomplete
    omega
  have hfirst : c.instruction.a.extension c.wordA =
      c.extension.take c.instruction.a.extraWords := by
    apply Operand.extension_headD
    omega
  have hsecond : c.instruction.b.extension c.wordB =
      c.extension.drop c.instruction.a.extraWords := by
    have hrest : (c.extension.drop c.instruction.a.extraWords).length =
        c.instruction.b.extraWords := by
      rw [List.length_drop]
      omega
    rw [← List.take_of_length_le (Nat.le_of_eq hrest)]
    exact Operand.extension_headD (Nat.le_of_eq hrest.symm)
  rw [hfirst, hsecond, List.take_append_drop]

theorem canonical_eq_words {c : Coded} (h : c.IsCanonical) : c.canonical = c.words := by
  have hembed {x : Operand} {w : UInt16} (hx : x = .next → 0x1F < w) : x.embed w = x := by
    refine if_neg fun hsmall => ?_
    exact absurd hsmall.2 (UInt16.not_le.mpr (hx hsmall.1))
  simp only [canonical, hembed h.1, hembed h.2, c.extension_eq]
  rw [show Instruction.encode ⟨c.instruction.opcode, c.instruction.a, c.instruction.b⟩ = c.word from
    (Instruction.decode_eq_ok c.decodes).1]
  rfl

end Coded

/-! ### Programs -/

open Layout

theorem referencesFrom_eq_nil {es : List Entry} (h : ∀ e ∈ es, e.references = []) (n : Nat) :
    referencesFrom n es = [] := by
  induction es generalizing n with
  | nil => rfl
  | cons e es ih =>
    have he := h e List.mem_cons_self
    rw [referencesFrom, he, ih fun e' he' => h e' (List.mem_cons_of_mem e he')]
    rfl

theorem wellFormed_entries {program : List Coded}
    (hsize : size (program.map Coded.entry) ≤ 65536) : WellFormed (program.map Coded.entry) := by
  have hlabels : labels (program.map Coded.entry) = [] := by
    simp [labels, List.filterMap_map, Function.comp_def, Coded.entry]
  have hreferences : references (program.map Coded.entry) = [] := by
    apply referencesFrom_eq_nil
    intro e he
    obtain ⟨c, -, rfl⟩ := List.mem_map.mp he
    exact c.references_entry
  refine ⟨⟨?_, ?_⟩, ?_, hsize⟩
  · rw [hlabels]
    exact List.nodup_nil
  · intro key a ha
    have hnone : address? (program.map Coded.entry) key = none :=
      address?_eq_none.mpr (by simp [hlabels])
    cases hnone.symm.trans ha
  · intro r hr
    rw [hreferences] at hr
    cases hr

theorem image_entries (program : List Coded) :
    image (program.map Coded.entry) = program.flatMap Coded.canonical := by
  simp [image, List.flatMap_map, Coded.words_entry]

theorem reads_texts (program : List Coded) :
    List.Forall₂ Entry.Reads (program.map Coded.text) (program.map Coded.entry) := by
  rw [List.forall₂_map_left_iff, List.forall₂_map_right_iff]
  exact List.forall₂_same.mpr fun c _ => c.instruction.reads_text c.extension

/-- The text that the disassembler writes for a program assembles to the program with all small
next words embedded, and so to the program itself if it has none. -/
theorem assemble_disassembled (program : List Coded)
    (hsize : (program.flatMap Coded.canonical).length ≤ 65536) :
    (∀ source, Text.lines source = program.map Coded.text →
      assemble source = .ok (program.flatMap Coded.canonical) ∧
        ((∀ c ∈ program, c.IsCanonical) → assemble source = .ok (program.flatMap Coded.words))) ∧
      Text.lines ((program.map Coded.text).flatMap (· ++ ['\n'])) = program.map Coded.text ∧
      Text.lines (['\n'].intercalate (program.map Coded.text)) = program.map Coded.text := by
  have hlines : ∀ l ∈ program.map Coded.text, Text.IsLine l ∧ l ≠ [] := by
    intro l hl
    obtain ⟨c, -, rfl⟩ := List.mem_map.mp hl
    refine ⟨c.instruction.isLine_text c.extension, ?_⟩
    simp [Coded.text, Instruction.toList_text]
  refine ⟨?_, ?_, Text.lines_intercalate hlines⟩
  · intro source hsource
    have hreads : List.Forall₂ Entry.Reads (Text.lines source) (program.map Coded.entry) := by
      rw [hsource]
      exact reads_texts program
    have hassemble : assemble source = .ok (program.flatMap Coded.canonical) := by
      rw [← image_entries] at hsize ⊢
      rw [length_image] at hsize
      exact assemble_of_wellFormed hreads (wellFormed_entries hsize)
    refine ⟨hassemble, fun hcanonical => ?_⟩
    have hwords : program.flatMap Coded.canonical = program.flatMap Coded.words :=
      List.flatMap_congr fun c hc => Coded.canonical_eq_words (hcanonical c hc)
    rwa [hwords] at hassemble
  · have hended := Text.lines_flatMap_append (fun l hl => (hlines l hl).1) []
    rwa [List.append_nil, Text.lines_nil, List.append_nil] at hended

/-- The first instruction could hold its next word itself, and the second could not. -/
theorem assemble_disassembled_small_next :
    ∃ program : List Coded,
      program.flatMap Coded.words = [0x7C01, 0x0010, 0x7DC1, 0x0020] ∧
        assemble "SET A, 0x0010\nSET PC, 0x0020\n".toList = .ok [0xC001, 0x7DC1, 0x0020] := by
  let program : List Coded :=
    [⟨0x7C01, [0x0010], ⟨.set, .register .a, .next⟩, rfl, rfl⟩,
      ⟨0x7DC1, [0x0020], ⟨.set, .pc, .next⟩, rfl, rfl⟩]
  have hsize : (program.flatMap Coded.canonical).length ≤ 65536 := by decide
  have hlines : Text.lines "SET A, 0x0010\nSET PC, 0x0020\n".toList = program.map Coded.text := by
    decide
  exact ⟨program, rfl, ((assemble_disassembled program hsize).1 _ hlines).1⟩

end Dcpu16
