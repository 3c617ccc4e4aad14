import Dcpu16.Assembly.Statement
import Dcpu16.Proofs.Assembly.Form

/-! Lines as they are written, with a grammar for their texts.  The reader of statements accepts a
text exactly when the grammar has a reading of it. -/

namespace Dcpu16.Assembly

/-! ### Statements -/

/-- An item of a data line, as written. -/
inductive Item where
  | term (t : Term)
  /-- The text of a quotation. -/
  | text (cs : List Char)
  deriving DecidableEq, Repr

inductive Item.Reads (item : List Char) : Item → Prop
  | text {cs : List Char} : item = '"' :: cs ++ ['"'] → Reads item (.text cs)
  | term {t : Term} : (∀ cs, item ≠ '"' :: cs ++ ['"']) → t.Reads item → Reads item (.term t)

def Item.datum : Item → Datum
  | term t => .value t.value
  | text cs => .text cs

/-- A statement, as written. -/
inductive Clause where
  | instruction (opcode : Opcode) (a b : Form)
  | data (items : List Item)
  deriving DecidableEq, Repr

/-- The text, without label and comment, stands for the statement. -/
inductive Clause.Reads (text : List Char) : Clause → Prop
  | instruction {word rest left right : List Char} {opcode : Opcode} {a b : Form} :
      splitWord text = (word, rest) → Opcode.ofMnemonic? (Text.upper word) = some opcode →
      (rest.splitOn ',').map Text.trim = [left, right] → left ≠ [] → right ≠ [] →
      a.Reads left → b.Reads right → Reads text (.instruction opcode a b)
  | data {word rest : List Char} {items : List Item} :
      splitWord text = (word, rest) →
      Text.upper word = "DAT".toList ∨ Text.upper word = "DATA".toList → rest ≠ [] →
      List.Forall₂ (fun piece item => Item.Reads (Text.trim piece) item)
        (Text.splitOutside ',' rest) items →
      Reads text (.data items)

def Clause.statement : Clause → Statement
  | instruction opcode a b => .instruction opcode a.argument b.argument
  | data items => .data (items.map Item.datum)

theorem quotation?_eq_some {cs inner : List Char} :
    quotation? cs = some inner ↔ cs = '"' :: inner ++ ['"'] := by
  unfold quotation?
  split
  · rw [dropLast_eq_some]
    simp
  · next h =>
    simp only [reduceCtorEq, false_iff]
    rintro rfl
    exact h _ rfl

theorem quotation?_eq_none {cs : List Char} :
    quotation? cs = none ↔ ∀ inner, cs ≠ '"' :: inner ++ ['"'] := by
  rw [Option.eq_none_iff_forall_ne_some]
  exact forall_congr' fun inner => not_congr quotation?_eq_some

theorem Datum.parse_eq_ok {item : List Char} {d : Datum} :
    Datum.parse item = .ok d ↔ ∃ i, Item.Reads item i ∧ i.datum = d := by
  unfold parse
  constructor
  · intro h
    split at h
    · next cs hcs => exact ⟨.text cs, .text (quotation?_eq_some.mp hcs), Except.ok.inj h⟩
    · next hnone =>
      obtain ⟨v, hv, rfl⟩ := map_eq_ok.mp h
      obtain ⟨t, ht, rfl⟩ := Value.parse_eq_ok.mp hv
      exact ⟨.term t, .term (quotation?_eq_none.mp hnone) ht, rfl⟩
  · rintro ⟨i, hi, rfl⟩
    cases hi with
    | text hcs =>
      rw [quotation?_eq_some.mpr hcs]
      rfl
    | term hnone ht =>
      rw [quotation?_eq_none.mpr hnone]
      exact map_eq_ok.mpr ⟨_, Value.parse_eq_ok.mpr ⟨_, ht, rfl⟩, rfl⟩

theorem Statement.parseData_eq_ok {rest : List Char} {s : Statement} :
    Statement.parseData rest = .ok s ↔ rest ≠ [] ∧ ∃ items,
      List.Forall₂ (fun piece item => Item.Reads (Text.trim piece) item)
        (Text.splitOutside ',' rest) items ∧ (Clause.data items).statement = s := by
  have hitems : ∀ ds, (Text.splitOutside ',' rest).mapM (fun item => Datum.parse (Text.trim item)) =
      .ok ds ↔ ∃ items, List.Forall₂ (fun piece item => Item.Reads (Text.trim piece) item)
        (Text.splitOutside ',' rest) items ∧ items.map Item.datum = ds := by
    intro ds
    simp only [mapM_eq_ok, Datum.parse_eq_ok, forall₂_exists_map]
  unfold parseData
  split
  · next h => simp [List.isEmpty_iff.mp h]
  · next h =>
    rw [bind_eq_ok]
    constructor
    · rintro ⟨ds, hds, ⟨⟩⟩
      obtain ⟨items, hread, rfl⟩ := (hitems ds).mp hds
      exact ⟨mt List.isEmpty_iff.mpr h, items, hread, rfl⟩
    · rintro ⟨-, items, hread, rfl⟩
      exact ⟨_, (hitems _).mpr ⟨items, hread, rfl⟩, rfl⟩

theorem Statement.parseInstruction_eq_ok {mnemonic : String} {opcode : Opcode} {rest : List Char}
    {s : Statement} :
    Statement.parseInstruction mnemonic opcode rest = .ok s ↔ ∃ left right a b,
      (rest.splitOn ',').map Text.trim = [left, right] ∧ left ≠ [] ∧ right ≠ [] ∧
      Form.Reads left a ∧ Form.Reads right b ∧ (Clause.instruction opcode a b).statement = s := by
  unfold parseInstruction
  constructor
  · intro h
    split at h
    · next left right hsplit =>
      split at h
      · cases h
      · next hempty =>
        simp only [Bool.or_eq_true, List.isEmpty_iff, not_or] at hempty
        obtain ⟨x, hx, h⟩ := bind_eq_ok.mp h
        obtain ⟨y, hy, ⟨⟩⟩ := bind_eq_ok.mp h
        obtain ⟨a, ha, rfl⟩ := Argument.parse_eq_ok.mp hx
        obtain ⟨b, hb, rfl⟩ := Argument.parse_eq_ok.mp hy
        exact ⟨left, right, a, b, hsplit, hempty.1, hempty.2, ha, hb, rfl⟩
    · cases h
  · rintro ⟨left, right, a, b, hsplit, hleft, hright, ha, hb, rfl⟩
    simp only [hsplit, List.isEmpty_eq_false_iff.mpr hleft, List.isEmpty_eq_false_iff.mpr hright]
    exact bind_eq_ok.mpr ⟨_, Argument.parse_eq_ok.mpr ⟨a, ha, rfl⟩,
      bind_eq_ok.mpr ⟨_, Argument.parse_eq_ok.mpr ⟨b, hb, rfl⟩, rfl⟩⟩

/-- The words that open a data line are no mnemonics. -/
theorem ofMnemonic?_data :
    Opcode.ofMnemonic? "DAT".toList = none ∧ Opcode.ofMnemonic? "DATA".toList = none := by
  decide

/-- The reader of statements accepts what the grammar has a reading of. -/
theorem Statement.parse_eq_ok {text : List Char} {s : Statement} :
    Statement.parse text = .ok s ↔ ∃ c, Clause.Reads text c ∧ c.statement = s := by
  obtain ⟨word, rest, hsplit⟩ : ∃ word rest, splitWord text = (word, rest) := ⟨_, _, rfl⟩
  have hdat : ∀ name, String.ofList (Text.upper word) = name ↔ Text.upper word = name.toList :=
    fun name =>
      ⟨fun h => by rw [← h, String.toList_ofList], fun h => by rw [h, String.ofList_toList]⟩
  unfold parse
  simp only [hsplit, hdat, String.toList_ofList]
  constructor
  · intro h
    split at h
    · next hword =>
      obtain ⟨hrest, items, hitems, hs⟩ := parseData_eq_ok.mp h
      exact ⟨_, .data hsplit hword hrest hitems, hs⟩
    · split at h
      · next opcode hop =>
        obtain ⟨left, right, a, b, hpieces, hleft, hright, ha, hb, hs⟩ :=
          parseInstruction_eq_ok.mp h
        exact ⟨_, .instruction hsplit hop hpieces hleft hright ha hb, hs⟩
      · cases h
  · rintro ⟨c, hc, rfl⟩
    cases hc with
    | instruction hsplit' hop hpieces hleft hright ha hb =>
      obtain ⟨rfl, rfl⟩ := Prod.mk.inj (hsplit.symm.trans hsplit')
      have hdata := ofMnemonic?_data
      rw [if_neg (by rintro (h | h) <;> simp_all), hop]
      exact parseInstruction_eq_ok.mpr ⟨_, _, _, _, hpieces, hleft, hright, ha, hb, rfl⟩
    | data hsplit' hword hrest hitems =>
      obtain ⟨rfl, rfl⟩ := Prod.mk.inj (hsplit.symm.trans hsplit')
      rw [if_pos hword]
      exact parseData_eq_ok.mpr ⟨hrest, _, hitems, rfl⟩

/-! ### Lines -/

/-- A line, as written: the key of the label that it defines, and the statement that it holds. -/
structure Entry where
  label : Option String
  clause : Option Clause
  deriving DecidableEq, Repr

/-- The label that a line defines has an identifier for its name. -/
inductive Entry.Labels (l : Line) : Option String → Prop
  | none : l.label = none → Labels l none
  | some {name : List Char} : l.label = some name → isIdentifier name = true →
      Labels l (some (labelKey name))

/-- The line has no statement, or its statement is read. -/
inductive Entry.Holds (l : Line) : Option Clause → Prop
  | none : l.body = [] → Holds l none
  | some {c : Clause} : l.body ≠ [] → c.Reads l.body → Holds l (some c)

/-- The text of a line stands for the entry. -/
def Entry.Reads (text : List Char) (e : Entry) : Prop :=
  Labels (Line.ofText text) e.label ∧ Holds (Line.ofText text) e.clause

theorem Line.statement_eq_ok {l : Line} {s : Option Statement} :
    l.statement = .ok s ↔ ∃ c, Entry.Holds l c ∧ c.map Clause.statement = s := by
  unfold statement
  split
  · next h =>
    have hbody := List.isEmpty_iff.mp h
    constructor
    · intro hs
      exact ⟨none, .none hbody, Except.ok.inj hs⟩
    · rintro ⟨c, hc, rfl⟩
      cases hc with
      | none => rfl
      | some hne => exact absurd hbody hne
  · next h =>
    have hbody := mt List.isEmpty_iff.mpr h
    rw [map_eq_ok]
    constructor
    · rintro ⟨s, hs, rfl⟩
      obtain ⟨c, hc, rfl⟩ := Statement.parse_eq_ok.mp hs
      exact ⟨some c, .some hbody hc, rfl⟩
    · rintro ⟨c, hc, rfl⟩
      cases hc with
      | none hempty => exact absurd hempty hbody
      | some _ hc => exact ⟨_, Statement.parse_eq_ok.mpr ⟨_, hc, rfl⟩, rfl⟩

/-! ### Readings are unique -/

theorem Item.Reads.unique {item : List Char} {x y : Item} (hx : x.Reads item) (hy : y.Reads item) :
    x = y := by
  cases hx with
  | text htext =>
    cases hy with
    | text htext' => simpa using htext.symm.trans htext'
    | term hnone => exact absurd htext (hnone _)
  | term hnone ht =>
    cases hy with
    | text htext => exact absurd htext (hnone _)
    | term _ ht' => rw [ht.unique ht']

theorem Clause.Reads.unique {text : List Char} {c d : Clause} (hc : c.Reads text)
    (hd : d.Reads text) : c = d := by
  have hdata {word : List Char} {opcode : Opcode}
      (hop : Opcode.ofMnemonic? (Text.upper word) = some opcode)
      (hword : Text.upper word = "DAT".toList ∨ Text.upper word = "DATA".toList) : False := by
    rcases hword with h | h
    · cases hop.symm.trans (h ▸ ofMnemonic?_data.1)
    · cases hop.symm.trans (h ▸ ofMnemonic?_data.2)
  cases hc with
  | instruction hsplit hop hpieces _ _ ha hb =>
    cases hd with
    | instruction hsplit' hop' hpieces' _ _ ha' hb' =>
      obtain ⟨rfl, rfl⟩ := Prod.mk.inj (hsplit.symm.trans hsplit')
      obtain ⟨rfl, hpieces⟩ := List.cons_eq_cons.mp (hpieces.symm.trans hpieces')
      obtain ⟨rfl, -⟩ := List.cons_eq_cons.mp hpieces
      rw [Option.some.inj (hop.symm.trans hop'), ha.unique ha', hb.unique hb']
    | data hsplit' hword =>
      obtain ⟨rfl, rfl⟩ := Prod.mk.inj (hsplit.symm.trans hsplit')
      exact (hdata hop hword).elim
  | data hsplit hword _ hitems =>
    cases hd with
    | instruction hsplit' hop =>
      obtain ⟨rfl, rfl⟩ := Prod.mk.inj (hsplit.symm.trans hsplit')
      exact (hdata hop hword).elim
    | data hsplit' _ _ hitems' =>
      obtain ⟨rfl, rfl⟩ := Prod.mk.inj (hsplit.symm.trans hsplit')
      rw [List.right_unique_forall₂' (fun _ _ _ hx hy => hx.unique hy) hitems hitems']

theorem Entry.Reads.unique {text : List Char} {e f : Entry} (he : e.Reads text)
    (hf : f.Reads text) : e = f := by
  obtain ⟨label, clause⟩ := e
  obtain ⟨label', clause'⟩ := f
  obtain ⟨hlabel, hclause⟩ := he
  obtain ⟨hlabel', hclause'⟩ := hf
  have hl : label = label' := by
    cases hlabel <;> cases hlabel' <;> simp_all
  have hc : clause = clause' := by
    cases hclause with
    | none hempty =>
      cases hclause' with
      | none => rfl
      | some hne => exact absurd hempty hne
    | some hne hc =>
      cases hclause' with
      | none hempty => exact absurd hempty hne
      | some _ hc' => rw [hc.unique hc']
  rw [hl, hc]

end Dcpu16.Assembly
