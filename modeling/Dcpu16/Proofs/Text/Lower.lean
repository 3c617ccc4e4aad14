import Dcpu16.Proofs.Text.Case
import Dcpu16.Proofs.Text.Digits

/-! Lower case.  The lower case of a text is a relation here, which says of the characters beyond
ASCII only what no table of them denies; this decides where a text in lower case starts with a mark
and which number it is. -/

namespace Dcpu16.Text

/-- The second text is the first in lower case.  An ASCII capital becomes a small letter and other
ASCII characters stay; any other character becomes one or more characters, of which none is in ASCII
but the `i` and the `k` of `İ` and the Kelvin sign. -/
inductive LowerCase : List Char → List Char → Prop
  | nil : LowerCase [] []
  | ascii {c : Char} {cs low : List Char} : c.toNat < 0x80 → LowerCase cs low →
      LowerCase (c :: cs) (c.toLower :: low)
  | wide {c : Char} {piece cs low : List Char} : 0x80 ≤ c.toNat → piece ≠ [] →
      (∀ d ∈ piece, 0x80 ≤ d.toNat ∨ d = 'i' ∨ d = 'k') → LowerCase cs low →
      LowerCase (c :: cs) (piece ++ low)

theorem exists_lowerCase (cs : List Char) : ∃ low, LowerCase cs low := by
  induction cs with
  | nil => exact ⟨[], .nil⟩
  | cons c cs ih =>
    obtain ⟨low, hlow⟩ := ih
    by_cases hc : c.toNat < 0x80
    · exact ⟨_, .ascii hc hlow⟩
    · refine ⟨[c] ++ low, .wide (Nat.le_of_not_lt hc) (List.cons_ne_nil c []) ?_ hlow⟩
      intro d hd
      obtain rfl := List.mem_singleton.mp hd
      exact .inl (Nat.le_of_not_lt hc)

theorem toNat_toLower (c : Char) :
    c.toLower.toNat = if 65 ≤ c.toNat ∧ c.toNat ≤ 90 then c.toNat + 32 else c.toNat := by
  have hupper : c.val ≥ 'A'.val ∧ c.val ≤ 'Z'.val ↔ 65 ≤ c.toNat ∧ c.toNat ≤ 90 := Iff.rfl
  unfold Char.toLower
  split
  · next h =>
    have h' := hupper.mp h
    rw [if_pos h']
    show (c.val + ('a'.val - 'A'.val)).toNat = c.toNat + 32
    have hval : c.val.toNat = c.toNat := rfl
    rw [UInt32.toNat_add, hval, show ('a'.val - 'A'.val).toNat = 32 from rfl]
    omega
  · next h => rw [if_neg (mt hupper.mpr h)]

theorem toUpper_toLower (c : Char) : c.toLower.toUpper = c.toUpper := by
  rw [← Char.toNat_inj, toNat_toUpper, toNat_toUpper, toNat_toLower]
  grind

/-- A character that only itself and the capital of it become. -/
def IsPlain (c : Char) : Prop := c.toNat < 0x80 ∧ c ≠ 'i' ∧ c ≠ 'k'

theorem not_isPlain_of_wide {piece : List Char} (hne : piece ≠ [])
    (hpiece : ∀ d ∈ piece, 0x80 ≤ d.toNat ∨ d = 'i' ∨ d = 'k') (low : List Char) :
    ∃ d rest, piece ++ low = d :: rest ∧ ¬IsPlain d := by
  cases piece with
  | nil => exact absurd rfl hne
  | cons d piece =>
    refine ⟨d, piece ++ low, rfl, fun ⟨hascii, hi, hk⟩ => ?_⟩
    rcases hpiece d List.mem_cons_self with h | h | h
    · exact absurd hascii (Nat.not_lt_of_le h)
    · exact hi h
    · exact hk h

variable {cs low : List Char}

theorem LowerCase.map_toUpper_eq (h : LowerCase cs low)
    (hplain : (∀ d ∈ low, IsPlain d) ∨ ∀ c ∈ cs, IsPlain c) :
    low.map Char.toUpper = cs.map Char.toUpper := by
  induction h with
  | nil => rfl
  | ascii _ _ ih =>
    rw [List.map_cons, List.map_cons, toUpper_toLower, ih]
    exact hplain.imp (fun h d hd => h d (List.mem_cons_of_mem _ hd))
      fun h d hd => h d (List.mem_cons_of_mem _ hd)
  | wide hc hne hpiece _ _ =>
    rcases hplain with hlow | hcs
    · obtain ⟨d, rest, hd, hnot⟩ := not_isPlain_of_wide hne hpiece _
      exact absurd (hlow d (hd ▸ List.mem_cons_self)) hnot
    · exact absurd (hcs _ List.mem_cons_self).1 (Nat.not_lt_of_le hc)

theorem LowerCase.eq_cons {d : Char} (h : LowerCase cs (d :: low)) (hd : IsPlain d) :
    ∃ c rest, cs = c :: rest ∧ c.toLower = d ∧ LowerCase rest low := by
  generalize hwhole : d :: low = whole at h
  cases h with
  | nil => cases hwhole
  | @ascii c cs low _ hrest =>
    obtain ⟨rfl, rfl⟩ := List.cons.inj hwhole
    exact ⟨c, cs, rfl, rfl, hrest⟩
  | wide _ hne hpiece _ =>
    obtain ⟨e, rest, he, hnot⟩ := not_isPlain_of_wide hne hpiece _
    obtain ⟨rfl, -⟩ := List.cons.inj (hwhole.trans he)
    exact absurd hd hnot

theorem LowerCase.cons_eq {c : Char} (h : LowerCase (c :: cs) low) (hc : c.toNat < 0x80) :
    ∃ rest, low = c.toLower :: rest ∧ LowerCase cs rest := by
  cases h with
  | ascii _ hrest => exact ⟨_, rfl, hrest⟩
  | wide hwide => exact absurd hc (Nat.not_lt_of_le hwide)

/-! ### Numbers -/

theorem IsDigit.isPlain {base : Nat} (hbase : base ≤ 16) {c : Char} {d : Nat}
    (h : IsDigit base c d) : IsPlain c := by
  have hall : ∀ d < 16, (d.digitChar.toNat < 0x80 ∧ d.digitChar ≠ 'i' ∧ d.digitChar ≠ 'k') ∧
      d.digitChar.toUpper.toNat < 0x80 ∧ d.digitChar.toUpper ≠ 'i' ∧ d.digitChar.toUpper ≠ 'k' := by
    decide
  obtain ⟨hd, rfl | rfl⟩ := h
  · exact (hall d (by omega)).1
  · exact (hall d (by omega)).2

theorem Denotes.isPlain {base : Nat} (hbase : base ≤ 16) {n : Nat} (h : Denotes base cs n) :
    ∀ c ∈ cs, IsPlain c :=
  h.forall_mem fun _ _ hd => hd.isPlain hbase

theorem DenotesSigned.isPlain {base : Nat} (hbase : base ≤ 16) {n : Int}
    (h : DenotesSigned base cs n) : ∀ c ∈ cs, IsPlain c := by
  have hsign {c : Char} {cs : List Char} (hc : IsPlain c) (hcs : ∀ d ∈ cs, IsPlain d) :
      ∀ d ∈ c :: cs, IsPlain d := by
    intro d hd
    rcases List.mem_cons.mp hd with rfl | hd
    · exact hc
    · exact hcs d hd
  cases h with
  | unsigned h => exact h.isPlain hbase
  | plus h => exact hsign ⟨by decide, by decide, by decide⟩ (h.isPlain hbase)
  | minus h => exact hsign ⟨by decide, by decide, by decide⟩ (h.isPlain hbase)

/-- A text is a number exactly if its lower case is. -/
theorem LowerCase.denotesSigned_iff (h : LowerCase cs low) {base : Nat} (hbase : base ≤ 16)
    {n : Int} : DenotesSigned base low n ↔ DenotesSigned base cs n := by
  have hsame (hplain : (∀ d ∈ low, IsPlain d) ∨ ∀ c ∈ cs, IsPlain c) :
      readSigned? base low = readSigned? base cs := by
    rw [← readSigned?_toUpper, h.map_toUpper_eq hplain, readSigned?_toUpper]
  constructor
  · intro hlow
    rw [← readSigned?_iff hbase, ← hsame (.inl (hlow.isPlain hbase))]
    exact (readSigned?_iff hbase).mpr hlow
  · intro hcs
    rw [← readSigned?_iff hbase, hsame (.inr (hcs.isPlain hbase))]
    exact (readSigned?_iff hbase).mpr hcs

end Dcpu16.Text
