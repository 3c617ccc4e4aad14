import Dcpu16.Machine.State

/-! What memory reads once a program is written into it. -/

namespace Dcpu16

namespace Memory

theorem getElem?_overwrite (cells : Array UInt16) (start : Nat) (ws : List UInt16)
    (h : start + ws.length ≤ cells.size) (k : Nat) :
    (overwrite cells start ws)[k]? =
      if start ≤ k ∧ k < start + ws.length then ws[k - start]? else cells[k]? := by
  induction ws generalizing cells start with
  | nil => simp [overwrite, show ¬(start ≤ k ∧ k < start) by omega]
  | cons w ws ih =>
    simp only [List.length_cons] at h
    rw [overwrite, ih _ _ (by simpa using by omega), Array.getElem?_setIfInBounds]
    by_cases hk : k = start
    · subst hk
      rw [if_neg (by omega)]
      simp [show k < cells.size by omega]
    · by_cases hlow : start < k
      · have hsub : k - start = k - (start + 1) + 1 := by omega
        simp [hsub, Ne.symm hk, List.length_cons, Nat.add_assoc, Nat.add_comm 1,
          show start ≤ k by omega, show start + 1 ≤ k by omega]
      · simp [Ne.symm hk, show ¬start ≤ k by omega, show ¬start + 1 ≤ k by omega]

variable {m m' : Memory} {start : UInt16} {ws : List UInt16}

theorem load_eq_ok : m.load start ws = .ok m' ↔
    (start.toNat < m.size ∧ ws.length ≤ m.size - start.toNat) ∧
      m'.cells = overwrite m.cells start.toNat ws := by
  unfold load
  split
  · next h =>
    simp only [Except.ok.injEq, h, true_and]
    constructor
    · rintro rfl
      rfl
    · intro hcells
      cases m'
      simp only at hcells
      simp only [hcells]
  · next h => simp [h]

theorem size_load (h : m.load start ws = .ok m') : m'.size = m.size := by
  rw [size, (load_eq_ok.mp h).2, size_overwrite, size]

/-- Memory holds these words at the addresses from `p` on. -/
def WordsAt (m : Memory) (p : Nat) (ws : List UInt16) : Prop :=
  ∀ k w, ws[k]? = some w → m.read (.ofNat (p + k)) = w

theorem wordsAt_append {p : Nat} {us vs : List UInt16} :
    m.WordsAt p (us ++ vs) ↔ m.WordsAt p us ∧ m.WordsAt (p + us.length) vs := by
  constructor
  · intro h
    refine ⟨fun k w hk => h k w ?_, fun k w hk => ?_⟩
    · rw [List.getElem?_append_left (List.getElem?_eq_some_iff.mp hk).1, hk]
    · rw [Nat.add_assoc]
      refine h _ w ?_
      rw [List.getElem?_append_right (Nat.le_add_right _ k), Nat.add_sub_cancel_left, hk]
  · rintro ⟨hu, hv⟩ k w hk
    by_cases hlt : k < us.length
    · exact hu k w (by rwa [List.getElem?_append_left hlt] at hk)
    · have hle : us.length ≤ k := Nat.le_of_not_lt hlt
      rw [List.getElem?_append_right hle] at hk
      have h := hv _ w hk
      rwa [Nat.add_assoc, Nat.add_sub_cancel' hle] at h

theorem wordsAt_singleton {p : Nat} {w : UInt16} : m.WordsAt p [w] ↔ m.read (.ofNat p) = w := by
  constructor
  · exact fun h => h 0 w rfl
  · rintro rfl k w hk
    obtain ⟨rfl, rfl⟩ : k = 0 ∧ m.read (.ofNat p) = w := by
      cases k <;> simp_all
    rfl

theorem wordsAt_load (h : m.load start ws = .ok m') : m'.WordsAt start.toNat ws := by
  intro k w hk
  obtain ⟨⟨hstart, hfit⟩, hcells⟩ := load_eq_ok.mp h
  have hlt : k < ws.length := (List.getElem?_eq_some_iff.mp hk).1
  have hsize : m'.cells.size = m.cells.size := size_load h
  have hle := m.size_le
  unfold fullSize at hle
  unfold size at hstart hfit
  have hindex : m'.index (.ofNat (start.toNat + k)) = start.toNat + k := by
    rw [index, UInt16.toNat_ofNat', Nat.mod_eq_of_lt (by omega), Nat.mod_eq_of_lt (by omega)]
  have hread : m'.cells[start.toNat + k]? = some w := by
    rw [hcells, getElem?_overwrite _ _ _ (by omega), if_pos (by omega), Nat.add_sub_cancel_left, hk]
  unfold read
  simp only [hindex]
  exact (Array.getElem?_eq_some_iff.mp hread).2

end Memory

/-- A program that is no longer than memory can be loaded at address zero. -/
theorem Machine.exists_load_zero (m : Machine) {ws : List UInt16} (h : ws.length ≤ m.memory.size) :
    ∃ m', m.load 0 ws = .ok m' ∧ m'.memory.WordsAt 0 ws := by
  obtain ⟨memory, hmemory⟩ : ∃ memory, m.memory.load 0 ws = .ok memory :=
    ⟨⟨_, _, _⟩, dif_pos ⟨m.memory.size_pos, h⟩⟩
  exact ⟨{ m with memory }, by rw [Machine.load, hmemory], Memory.wordsAt_load hmemory⟩

end Dcpu16
