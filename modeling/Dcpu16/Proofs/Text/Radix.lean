import Dcpu16.Text.Radix

/-! Hexadecimal numbers read back as what was written, in either case and with zeros before them. -/

namespace Dcpu16.Text

/-- The digits that numbers are written with. -/
def hexDigits : List Char := "0123456789abcdef".toList

theorem digitChar_mem_hexDigits : ∀ d < 16, d.digitChar ∈ hexDigits := by decide

theorem digit?_digitChar : ∀ d < 16, digit? 16 d.digitChar = some d := by decide

theorem mem_hexDigits_of_mem_toDigits {n : Nat} {c : Char} (h : c ∈ Nat.toDigits 16 n) :
    c ∈ hexDigits := by
  induction n using Nat.base_induction 16 (by decide) with
  | single d hd =>
    rw [Nat.toDigits_of_lt_base hd, List.mem_singleton] at h
    exact h ▸ digitChar_mem_hexDigits d hd
  | digit n d hd hn ih =>
    rw [← Nat.toDigits_append_toDigits (by decide) hn hd, Nat.toDigits_of_lt_base hd,
      List.mem_append, List.mem_singleton] at h
    rcases h with h | rfl
    · exact ih h
    · exact digitChar_mem_hexDigits d hd

theorem hex_subset (n : Nat) : (hex n).toList ⊆ hexDigits := by
  intro c h
  rw [hex, String.toList_ofList] at h
  exact mem_hexDigits_of_mem_toDigits h

theorem hex4_subset (n : Nat) : (hex4 n).toList ⊆ hexDigits := by
  intro c h
  rw [hex4, String.toList_ofList, List.mem_append] at h
  rcases h with h | h
  · obtain rfl := (List.mem_replicate.mp h).2
    decide
  · exact mem_hexDigits_of_mem_toDigits h

/-! ### Reading -/

/-- The value of digits, most significant first. -/
def ofDigits (base : Nat) (ds : List Nat) : Nat := ds.foldl (fun n d => n * base + d) 0

theorem readNat?_eq_some {base : Nat} {cs : List Char} {ds : List Nat} (hne : cs ≠ [])
    (h : cs.mapM (digit? base) = some ds) : readNat? base cs = some (ofDigits base ds) := by
  rw [readNat?, if_neg (by simpa using hne), h]
  rfl

theorem mapM_digit?_toDigits (n : Nat) :
    ∃ ds, (Nat.toDigits 16 n).mapM (digit? 16) = some ds ∧ ofDigits 16 ds = n := by
  induction n using Nat.base_induction 16 (by decide) with
  | single d hd =>
    refine ⟨[d], ?_, by simp [ofDigits]⟩
    rw [Nat.toDigits_of_lt_base hd]
    simp [digit?_digitChar d hd]
  | digit n d hd hn ih =>
    obtain ⟨ds, hds, hvalue⟩ := ih
    refine ⟨ds ++ [d], ?_, ?_⟩
    · rw [← Nat.toDigits_append_toDigits (by decide) hn hd, Nat.toDigits_of_lt_base hd]
      simp [hds, digit?_digitChar d hd]
    · rw [ofDigits, List.foldl_append, ← ofDigits, hvalue, List.foldl_cons, List.foldl_nil,
        Nat.mul_comm]

theorem readNat?_hex (n : Nat) : readNat? 16 (hex n).toList = some n := by
  obtain ⟨ds, hds, hvalue⟩ := mapM_digit?_toDigits n
  rw [hex, String.toList_ofList, readNat?_eq_some Nat.toDigits_ne_nil hds, hvalue]

theorem mapM_digit?_zeros (k : Nat) :
    (List.replicate k '0').mapM (digit? 16) = some (List.replicate k 0) := by
  induction k with
  | zero => rfl
  | succ k ih =>
    rw [List.replicate_succ, List.mapM_cons, ih]
    rfl

theorem ofDigits_zeros (k : Nat) (ds : List Nat) :
    ofDigits 16 (List.replicate k 0 ++ ds) = ofDigits 16 ds := by
  induction k with
  | zero => rfl
  | succ k ih => simpa [ofDigits, List.replicate_succ] using ih

theorem readNat?_hex4 (n : Nat) : readNat? 16 (hex4 n).toList = some n := by
  obtain ⟨ds, hds, hvalue⟩ := mapM_digit?_toDigits n
  have hdigits : (hex4 n).toList.mapM (digit? 16) =
      some (List.replicate (4 - (Nat.toDigits 16 n).length) 0 ++ ds) := by
    simp [hex4, mapM_digit?_zeros, hds]
  rw [readNat?_eq_some (by simp [hex4]) hdigits, ofDigits_zeros, hvalue]

/-! ### Signs -/

theorem readUnsigned?_eq {base : Nat} {cs : List Char} (h : '+' ∉ cs) :
    readUnsigned? base cs = readNat? base cs := by
  unfold readUnsigned?
  split
  · simp at h
  · rfl

theorem readSigned?_eq {base : Nat} {cs : List Char} (hminus : '-' ∉ cs) (hplus : '+' ∉ cs) :
    readSigned? base cs = (readNat? base cs).map Int.ofNat := by
  unfold readSigned?
  split
  · simp at hminus
  · rw [readUnsigned?_eq hplus]

/-! ### Case -/

theorem toNat_toUpper (c : Char) :
    c.toUpper.toNat = if 97 ≤ c.toNat ∧ c.toNat ≤ 122 then c.toNat - 32 else c.toNat := by
  have hlower : 'a'.val ≤ c.val ∧ c.val ≤ 'z'.val ↔ 97 ≤ c.toNat ∧ c.toNat ≤ 122 := Iff.rfl
  unfold Char.toUpper
  split
  · next h =>
    have h' := hlower.mp h
    rw [if_pos h']
    show (c.val + ('A'.val - 'a'.val)).toNat = c.toNat - 32
    have hval : c.val.toNat = c.toNat := rfl
    rw [UInt32.toNat_add, hval, show ('A'.val - 'a'.val).toNat = 4294967264 from rfl]
    omega
  · next h => rw [if_neg (mt hlower.mpr h)]

theorem digit?_toUpper (base : Nat) (c : Char) : digit? base c.toUpper = digit? base c := by
  have h := toNat_toUpper c
  simp only [digit?, Bool.and_eq_true, decide_eq_true_eq]
  grind

theorem readNat?_toUpper (base : Nat) (cs : List Char) :
    readNat? base (cs.map Char.toUpper) = readNat? base cs := by
  simp [readNat?, List.mapM_map, Function.comp_def, digit?_toUpper]

end Dcpu16.Text
