import Mathlib.Algebra.Ring.Nat
import Dcpu16.Proofs.Assembly.Entry

/-! The layout of a program in two passes.  The first pass needs only the sizes of statements, which
no label changes, and gives every label the number of words before it; the second writes every
statement with these addresses. -/

namespace Dcpu16.Assembly

/-! ### Sizes -/

/-- The number of extension words of an operand: one for what stands in square brackets, unless it
is a register alone, for a label, and for a number that a value code cannot hold. -/
def Form.size : Form → Nat
  | offset _ _ | cell _ => 1
  | term (.label _) => 1
  | term (.number n) => if n % 65536 ≤ 0x1F then 0 else 1
  | _ => 0

/-- A label or number is one word, and so is each character of a quotation. -/
def Item.size : Item → Nat
  | term _ => 1
  | text cs => cs.length

def Clause.size : Clause → Nat
  | instruction _ a b => 1 + a.size + b.size
  | data items => (items.map Item.size).sum

/-- The number of words that a line puts into the program. -/
def Entry.size (e : Entry) : Nat := (e.clause.map Clause.size).getD 0

/-! ### Words -/

/-- The word that a term stands for, for the addresses of labels. -/
def Term.word (address : String → UInt16) : Term → UInt16
  | number n => .ofNat (n % 65536).toNat
  | label key => address key

/-- The extension words of an operand: one or none. -/
def Form.extension (address : String → UInt16) (f : Form) : List UInt16 :=
  (f.extension?.map (Term.word address)).toList

def Item.words (address : String → UInt16) : Item → List UInt16
  | term t => [t.word address]
  | text cs => cs.map fun c => .ofNat c.toNat

/-- The words of a statement: the instruction word, then the extension word of A, then that of B. -/
def Clause.words (address : String → UInt16) : Clause → List UInt16
  | instruction opcode a b =>
    Instruction.encode ⟨opcode, a.operand, b.operand⟩ ::
      (a.extension address ++ b.extension address)
  | data items => items.flatMap (Item.words address)

def Entry.words (address : String → UInt16) (e : Entry) : List UInt16 :=
  (e.clause.map (Clause.words address)).getD []

/-! ### References -/

def Term.references : Term → List String
  | number _ => []
  | label key => [key]

def Form.references (f : Form) : List String := f.extension?.toList.flatMap Term.references

def Item.references : Item → List String
  | term t => t.references
  | text _ => []

def Clause.references : Clause → List String
  | instruction _ a b => a.references ++ b.references
  | data items => items.flatMap Item.references

/-- The keys of the labels that a line refers to, in the order of their words. -/
def Entry.references (e : Entry) : List String := (e.clause.map Clause.references).getD []

/-! ### Programs -/

namespace Layout

/-- The number of words of a program. -/
def size (es : List Entry) : Nat := (es.map Entry.size).sum

/-- The keys of the labels that a program defines. -/
def labels (es : List Entry) : List String := es.filterMap Entry.label

/-- The number of words before the definition of a label. -/
def address? : List Entry → String → Option Nat
  | [], _ => none
  | e :: es, key => if e.label = some key then some 0 else (address? es key).map (e.size + ·)

/-- The word that stands for a label. -/
def address (es : List Entry) (key : String) : UInt16 := .ofNat ((address? es key).getD 0)

/-- The labels that a program refers to, each with the number of its line, counted from `n`. -/
def referencesFrom (n : Nat) : List Entry → List (String × Nat)
  | [] => []
  | e :: es => e.references.map (·, n) ++ referencesFrom (n + 1) es

def references (es : List Entry) : List (String × Nat) := referencesFrom 1 es

/-- The words of a program. -/
def image (es : List Entry) : List UInt16 := es.flatMap (Entry.words (address es))

/-- No label is defined twice, and the address of every label is a word. -/
structure Labelled (es : List Entry) : Prop where
  nodup : (labels es).Nodup
  near (key : String) (a : Nat) : address? es key = some a → a < 65536

/-- The label that a further line defines is new, and its address is a word. -/
def Admits (es : List Entry) (label : Option String) : Prop :=
  ∀ key ∈ label, key ∉ labels es ∧ size es < 65536

/-- A program that can be laid out. -/
structure WellFormed (es : List Entry) : Prop extends Labelled es where
  defined (r : String × Nat) : r ∈ references es → r.1 ∈ labels es
  fits : size es ≤ 65536

/-! ### Programs line after line -/

theorem size_append (es fs : List Entry) : size (es ++ fs) = size es + size fs := by
  simp [size]

theorem labels_append (es fs : List Entry) : labels (es ++ fs) = labels es ++ labels fs := by
  simp [labels]

theorem labels_singleton (e : Entry) : labels [e] = e.label.toList := by
  cases h : e.label <;> simp [labels, h]

theorem address?_append (es fs : List Entry) (key : String) :
    address? (es ++ fs) key = (address? es key).or ((address? fs key).map (size es + ·)) := by
  induction es with
  | nil => cases h : address? fs key <;> simp [address?, size, h]
  | cons e es ih =>
    simp only [List.cons_append, address?, ih]
    split
    · rfl
    · cases address? es key with
      | some a => rfl
      | none => cases address? fs key <;> simp [size, Nat.add_assoc]

theorem address?_eq_none {es : List Entry} {key : String} :
    address? es key = none ↔ key ∉ labels es := by
  induction es with
  | nil => simp [address?, labels]
  | cons e es ih =>
    rw [address?, ← List.singleton_append, labels_append, labels_singleton, List.mem_append,
      Option.mem_toList]
    split
    · next h => simp [h]
    · next h =>
      rw [Option.map_eq_none_iff, ih]
      simp [h]

theorem Labelled.nil : Labelled [] := ⟨List.nodup_nil, nofun⟩

theorem Labelled.of_append {es fs : List Entry} (h : Labelled (es ++ fs)) : Labelled es := by
  refine ⟨?_, fun key a ha => h.near key a ?_⟩
  · exact (List.nodup_append.mp (labels_append es fs ▸ h.nodup)).1
  · rw [address?_append, ha, Option.some_or]

theorem labelled_append_singleton {es : List Entry} {e : Entry} :
    Labelled (es ++ [e]) ↔ Labelled es ∧ Admits es e.label := by
  have hlast (key : String) : address? [e] key = if e.label = some key then some 0 else none := rfl
  constructor
  · intro h
    refine ⟨h.of_append, fun key hkey => ?_⟩
    have hnodup := h.nodup
    rw [labels_append, labels_singleton, List.nodup_append] at hnodup
    have hnew : key ∉ labels es := fun hmem =>
      hnodup.2.2 key hmem key (Option.mem_toList.mpr hkey) rfl
    refine ⟨hnew, h.near key (size es) ?_⟩
    rw [address?_append, address?_eq_none.mpr hnew, hlast, if_pos (Option.mem_def.mp hkey)]
    rfl
  · rintro ⟨⟨hnodup, hnear⟩, hadmits⟩
    refine ⟨?_, fun key a ha => ?_⟩
    · rw [labels_append, labels_singleton, List.nodup_append]
      refine ⟨hnodup, ?_, ?_⟩
      · cases e.label <;> simp
      · rintro key hkey _ hmem rfl
        exact (hadmits key (Option.mem_toList.mp hmem)).1 hkey
    · rw [address?_append, hlast, Option.or_eq_some_iff] at ha
      rcases ha with ha | ⟨-, ha⟩
      · exact hnear key a ha
      · split at ha
        · next hkey =>
          obtain rfl : size es = a := by simpa using ha
          exact (hadmits key hkey).2
        · cases ha

theorem Labelled.admits {es fs : List Entry} {e : Entry} (h : Labelled (es ++ e :: fs)) :
    Admits es e.label := by
  rw [← List.singleton_append, ← List.append_assoc] at h
  exact (labelled_append_singleton.mp h.of_append).2

end Layout

end Dcpu16.Assembly
