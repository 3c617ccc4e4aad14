import Dcpu16.Assembly.Program
import Dcpu16.Proofs.Assembly.Layout

/-! Back-patching lays programs out as two passes do.  While lines are assembled the output holds
the program with zeros for labels, and the references note where; replacing them one after another
turns the zeros into addresses, or stops at the first label without a definition. -/

namespace Dcpu16.Assembly

/-! ### Cells -/

/-- The word that a value stands for, for the addresses of labels. -/
def Value.word (address : String → UInt16) : Value → UInt16
  | number w => w
  | label key => address key

def Value.references : Value → List String
  | number _ => []
  | label key => [key]

/-- The values that a line puts into the program. -/
def Entry.cells (e : Entry) : List Value := (e.clause.map (·.statement.cells)).getD []

theorem Form.toList_extra (f : Form) :
    f.argument.extra.toList = f.extension?.toList.map Term.value := by
  cases h : f.extension? <;> simp [Form.argument, h]

theorem Form.length_extension? (f : Form) : f.extension?.toList.length = f.size := by
  cases f with
  | term t =>
    cases t with
    | number n => by_cases h : n % 65536 ≤ 0x1F <;> simp [extension?, size, Term.Embeds, h]
    | label key => simp [extension?, size, Term.Embeds]
  | _ => rfl

theorem Term.word_value (address : String → UInt16) (t : Term) :
    t.value.word address = t.word address := by
  cases t <;> rfl

theorem Term.references_value (t : Term) : t.value.references = t.references := by
  cases t <;> rfl

theorem Clause.length_cells (c : Clause) : c.statement.cells.length = c.size := by
  cases c with
  | instruction opcode a b =>
    simp [statement, Statement.cells, Form.toList_extra, Form.length_extension?, size]
    omega
  | data items =>
    simp only [statement, Statement.cells, size, List.length_flatMap, List.map_map]
    congr 2
    funext item
    cases item <;> simp [Item.datum, Item.size]

theorem Clause.map_word_cells (address : String → UInt16) (c : Clause) :
    c.statement.cells.map (Value.word address) = c.words address := by
  cases c with
  | instruction opcode a b =>
    have hextra : ∀ f : Form,
        f.argument.extra.toList.map (Value.word address) = f.extension address := by
      intro f
      rw [Form.toList_extra, Form.extension]
      cases f.extension? <;> simp [Term.word_value]
    simp only [statement, Statement.cells, words, List.map_cons, List.map_append, hextra]
    rfl
  | data items =>
    simp only [statement, Statement.cells, words, List.map_flatMap, List.flatMap_map]
    congr 1
    funext item
    cases item with
    | term t => simp [Item.datum, Item.words, Term.word_value]
    | text cs => simp [Item.datum, Item.words, Value.word]

theorem Clause.references_cells (c : Clause) :
    c.statement.cells.flatMap Value.references = c.references := by
  cases c with
  | instruction opcode a b =>
    have hextra : ∀ f : Form,
        f.argument.extra.toList.flatMap Value.references = f.references := by
      intro f
      simp only [Form.toList_extra, List.flatMap_map, Term.references_value]
      rfl
    simp only [statement, Statement.cells, references, List.flatMap_cons, List.flatMap_append,
      hextra]
    rfl
  | data items =>
    simp only [statement, Statement.cells, references, List.flatMap_assoc, List.flatMap_map]
    congr 1
    funext item
    cases item with
    | term t => simp [Item.datum, Item.references, Term.references_value]
    | text cs => simp [Item.datum, Item.references, Value.references]

namespace Entry

variable (e : Entry)

theorem length_cells : e.cells.length = e.size := by
  unfold cells size
  cases e.clause with
  | none => rfl
  | some c => exact c.length_cells

theorem map_word_cells (address : String → UInt16) :
    e.cells.map (Value.word address) = e.words address := by
  unfold cells words
  cases e.clause with
  | none => rfl
  | some c => exact c.map_word_cells address

theorem references_cells : e.cells.flatMap Value.references = e.references := by
  unfold cells references
  cases e.clause with
  | none => rfl
  | some c => exact c.references_cells

theorem length_words (address : String → UInt16) : (e.words address).length = e.size := by
  rw [← e.map_word_cells, List.length_map, e.length_cells]

end Entry

namespace Layout

theorem length_flatMap_words (address : String → UInt16) (es : List Entry) :
    (es.flatMap (Entry.words address)).length = size es := by
  simp [size, List.length_flatMap, Entry.length_words]

theorem length_image (es : List Entry) : (image es).length = size es :=
  length_flatMap_words (address es) es

/-- The values of a program, each with the number of its line, counted from `n`. -/
def cellsFrom (n : Nat) : List Entry → List (Value × Nat)
  | [] => []
  | e :: es => e.cells.map (·, n) ++ cellsFrom (n + 1) es

theorem cellsFrom_append (n : Nat) (es fs : List Entry) :
    cellsFrom n (es ++ fs) = cellsFrom n es ++ cellsFrom (n + es.length) fs := by
  induction es generalizing n with
  | nil => rfl
  | cons e es ih =>
    simp only [List.cons_append, cellsFrom, ih, List.append_assoc, List.length_cons]
    congr 3
    omega

theorem length_cellsFrom (n : Nat) (es : List Entry) : (cellsFrom n es).length = size es := by
  induction es generalizing n with
  | nil => rfl
  | cons e es ih => simp [cellsFrom, ih, size, Entry.length_cells]

theorem map_word_cellsFrom (n : Nat) (address : String → UInt16) (es : List Entry) :
    (cellsFrom n es).map (fun v => v.1.word address) = es.flatMap (Entry.words address) := by
  induction es generalizing n with
  | nil => rfl
  | cons e es ih =>
    simp only [cellsFrom, List.map_append, List.map_map, Function.comp_def, ih, List.flatMap_cons,
      ← e.map_word_cells]

theorem references_cellsFrom (n : Nat) (es : List Entry) :
    ((cellsFrom n es).flatMap fun v => v.1.references.map (·, v.2)) = referencesFrom n es := by
  induction es generalizing n with
  | nil => rfl
  | cons e es ih =>
    simp only [cellsFrom, referencesFrom, List.flatMap_append, List.flatMap_map, ih,
      ← e.references_cells, List.map_flatMap]

/-- The references to labels among values of which the first stands at this position. -/
def notes (position : Nat) : List (Value × Nat) → List Reference
  | [] => []
  | (.number _, _) :: vs => notes (position + 1) vs
  | (.label key, n) :: vs => ⟨position, key, n⟩ :: notes (position + 1) vs

theorem notes_append (position : Nat) (vs ws : List (Value × Nat)) :
    notes position (vs ++ ws) = notes position vs ++ notes (position + vs.length) ws := by
  fun_induction notes position vs with
  | case1 => rfl
  | case2 position w n vs ih => simpa [notes, Nat.add_assoc, Nat.add_comm 1] using ih
  | case3 position key n vs ih => simpa [notes, Nat.add_assoc, Nat.add_comm 1] using ih

theorem map_notes (position : Nat) (vs : List (Value × Nat)) :
    ((notes position vs).map fun r => (r.label, r.line)) =
      vs.flatMap fun v => v.1.references.map (·, v.2) := by
  fun_induction notes position vs with
  | case1 => rfl
  | case2 position w n vs ih => simpa [Value.references] using ih
  | case3 position key n vs ih => simpa [Value.references] using ih

end Layout

/-! ### Drafts -/

namespace Draft

open Layout

/-- What the draft of these lines holds: their words, with zeros for labels, the references to
labels, and the address of every label defined so far. -/
structure Holds (d : Draft) (es : List Entry) : Prop where
  output : d.output.toList = (cellsFrom 1 es).map fun v => v.1.word fun _ => 0
  references : d.references.toList = notes 0 (cellsFrom 1 es)
  symbols (key : String) : d.symbols[key]? = (address? es key).map UInt16.ofNat

theorem holds_nil : ({} : Draft).Holds [] :=
  ⟨rfl, rfl, fun _ => Std.HashMap.getElem?_empty⟩

theorem foldl_emit (d : Draft) (n : Nat) (vs : List Value) :
    (vs.foldl (emit n) d).symbols = d.symbols ∧
    (vs.foldl (emit n) d).output.toList = d.output.toList ++ vs.map (Value.word fun _ => 0) ∧
    (vs.foldl (emit n) d).references.toList =
      d.references.toList ++ notes d.output.size (vs.map (·, n)) := by
  induction vs generalizing d with
  | nil => simp [notes]
  | cons v vs ih =>
    obtain ⟨hsymbols, houtput, hreferences⟩ := ih (d.emit n v)
    cases v with
    | number w => simp_all [emit, notes, Value.word]
    | label key => simp_all [emit, notes, Value.word]

variable {d : Draft} {es : List Entry}

theorem Holds.size_output (h : d.Holds es) : d.output.size = size es := by
  rw [← Array.length_toList, h.output, List.length_map, length_cellsFrom]

theorem Holds.contains (h : d.Holds es) (key : String) :
    d.symbols.contains key = true ↔ key ∈ labels es := by
  rw [Std.HashMap.contains_eq_isSome_getElem?, h.symbols, Option.isSome_map,
    ← Option.ne_none_iff_isSome, ne_eq, address?_eq_none, not_not]

theorem Holds.define {name : List Char} (h : d.Holds es) (hid : isIdentifier name = true)
    (hadmits : Admits es (some (labelKey name))) :
    ∃ d', d.define name = .ok d' ∧ d'.Holds (es ++ [⟨some (labelKey name), none⟩]) := by
  obtain ⟨hnew, hsize⟩ := hadmits _ rfl
  refine ⟨{ d with symbols := d.symbols.insert (labelKey name) (.ofNat d.output.size) }, ?_, ?_⟩
  · have hfits : ¬65536 ≤ d.output.size := by
      rw [h.size_output]
      omega
    simp [Draft.define, hid, mt (h.contains _).mp hnew, Memory.fullSize, hfits]
  · refine ⟨?_, ?_, fun key => ?_⟩
    · simpa [cellsFrom_append, cellsFrom, Entry.cells] using h.output
    · simpa [cellsFrom_append, cellsFrom, Entry.cells] using h.references
    · rw [Std.HashMap.getElem?_insert, h.symbols, address?_append, h.size_output]
      by_cases hkey : labelKey name = key
      · subst hkey
        rw [address?_eq_none.mpr hnew]
        simp [address?]
      · simp [address?, hkey]

theorem Holds.emit {label : Option String} (h : d.Holds (es ++ [⟨label, none⟩])) (c : Clause) :
    (c.statement.cells.foldl (emit (es.length + 1)) d).Holds (es ++ [⟨label, some c⟩]) := by
  obtain ⟨hsymbols, houtput, hreferences⟩ := foldl_emit d (es.length + 1) c.statement.cells
  have hsize := h.size_output
  have hlines (n : Nat) : cellsFrom n [⟨label, some c⟩] = c.statement.cells.map (·, n) := by
    simp [cellsFrom, Entry.cells]
  refine ⟨?_, ?_, fun key => ?_⟩
  · rw [houtput, h.output]
    simp [cellsFrom_append, cellsFrom, Entry.cells, Function.comp_def]
  · rw [hreferences, h.references, hsize, cellsFrom_append, cellsFrom_append, hlines,
      notes_append, notes_append, length_cellsFrom, size_append]
    simp [cellsFrom, Entry.cells, notes, size, Entry.size, Nat.add_comm]
  · rw [hsymbols, h.symbols, address?_append, address?_append]
    rfl

theorem holds_append_blank : d.Holds (es ++ [⟨none, none⟩]) ↔ d.Holds es := by
  have hcells : cellsFrom 1 (es ++ [⟨none, none⟩]) = cellsFrom 1 es := by
    simp [cellsFrom_append, cellsFrom, Entry.cells]
  have haddress (key : String) : address? (es ++ [⟨none, none⟩]) key = address? es key := by
    simp [address?_append, address?]
  constructor
  · rintro ⟨h₁, h₂, h₃⟩
    exact ⟨hcells ▸ h₁, hcells ▸ h₂, fun key => haddress key ▸ h₃ key⟩
  · rintro ⟨h₁, h₂, h₃⟩
    exact ⟨hcells ▸ h₁, hcells ▸ h₂, fun key => (haddress key).symm ▸ h₃ key⟩

theorem Holds.addLine {text : List Char} {e : Entry} (h : d.Holds es) (hreads : e.Reads text)
    (hadmits : Admits es e.label) :
    ∃ d', d.addLine (Line.ofText text) (es.length + 1) = .ok d' ∧ d'.Holds (es ++ [e]) := by
  obtain ⟨label, clause⟩ := e
  obtain ⟨hlabel, hclause⟩ := hreads
  have hstatement := Line.statement_eq_ok.mpr ⟨clause, hclause, rfl⟩
  unfold Draft.addLine
  cases hlabel with
  | none hnone =>
    have h₁ := holds_append_blank.mpr h
    rw [hnone, hstatement]
    cases clause with
    | none => exact ⟨_, rfl, h₁⟩
    | some c => exact ⟨_, rfl, h₁.emit c⟩
  | some hsome hid =>
    obtain ⟨d₁, hd₁, h₁⟩ := h.define hid hadmits
    simp only [hsome, hd₁, hstatement]
    cases clause with
    | none => exact ⟨_, rfl, h₁⟩
    | some c => exact ⟨_, rfl, h₁.emit c⟩

end Draft

end Dcpu16.Assembly
