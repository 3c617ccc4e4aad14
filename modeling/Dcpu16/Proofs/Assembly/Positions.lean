import Dcpu16.Proofs.Assembly.Opening
import Dcpu16.Proofs.Assembly.TwoPass

/-! Where the lines of a source stand in its program: the words of a line follow those of the lines
before it, and the address of a label is the number of words before its line. -/

namespace Dcpu16.Assembly

open Layout

/-- The lines put `n` words into the program. -/
def Occupy (texts : List (List Char)) (n : Nat) : Prop :=
  ∃ es, List.Forall₂ Entry.Reads texts es ∧ size es = n

theorem occupy_nil {n : Nat} : Occupy [] n ↔ n = 0 := by
  constructor
  · rintro ⟨es, hes, rfl⟩
    obtain rfl := List.forall₂_nil_left_iff.mp hes
    rfl
  · rintro rfl
    exact ⟨[], .nil, rfl⟩

theorem exists_entry {texts before after : List (List Char)} {text : List Char} {es : List Entry}
    (hreads : List.Forall₂ Entry.Reads texts es) (htexts : texts = before ++ text :: after) :
    ∃ fs e gs, es = fs ++ e :: gs ∧ List.Forall₂ Entry.Reads before fs ∧ Entry.Reads text e := by
  subst htexts
  obtain ⟨fs, rest, rfl, hbefore, hrest⟩ := forall₂_append_left.mp hreads
  obtain ⟨e, gs, he, -, rfl⟩ := List.forall₂_cons_left_iff.mp hrest
  exact ⟨fs, e, gs, rfl, hbefore, he⟩

theorem words_prefix_image (before after : List Entry) (e : Entry) :
    e.words (address (before ++ e :: after)) <+:
      (image (before ++ e :: after)).drop (size before) := by
  rw [image, List.flatMap_append, List.flatMap_cons,
    List.drop_left' (length_flatMap_words _ before)]
  exact List.prefix_append _ _

theorem address?_label {before after : List Entry} {e : Entry} {key : String}
    (hes : WellFormed (before ++ e :: after)) (hlabel : e.label = some key) :
    address? (before ++ e :: after) key = some (size before) := by
  have hnew : key ∉ labels before := (hes.toLabelled.admits key hlabel).1
  rw [address?_append, address?_eq_none.mpr hnew, address?, if_pos hlabel]
  rfl

theorem Entry.clause_of_instruction {line word rest left right : List Char} {op : Opcode}
    {e : Entry} (h : Entry.Reads line e) (hsplit : splitWord (Line.ofText line).body = (word, rest))
    (hop : Opcode.ofMnemonic? (Text.upper word) = some op)
    (hpieces : Text.pieces ',' rest = [left, right]) :
    ∃ a b, e.clause = some (.instruction op a b) ∧ Form.Reads left a ∧ Form.Reads right b := by
  obtain ⟨label, clause⟩ := e
  cases h.2 with
  | none hempty =>
    rw [hempty] at hsplit
    obtain ⟨rfl, -⟩ := Prod.mk.inj hsplit
    cases hop
  | some _ hc =>
    cases (Clause.reads_iff hsplit).mp hc with
    | instruction hop' hpieces' _ _ ha hb =>
      obtain rfl := Option.some.inj (hop.symm.trans hop')
      obtain ⟨rfl, hrest⟩ := List.cons_eq_cons.mp (hpieces.symm.trans hpieces')
      obtain ⟨rfl, -⟩ := List.cons_eq_cons.mp hrest
      exact ⟨_, _, rfl, ha, hb⟩
    | data hword => cases hword.not_mnemonic.symm.trans hop

end Dcpu16.Assembly
