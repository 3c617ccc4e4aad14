import Dcpu16.Text.Lines

/-! Lines that are written one after another are read as they were written. -/

namespace Dcpu16.Text

/-- A line that no line end changes: it holds no line feed and ends with no carriage return. -/
def IsLine (l : List Char) : Prop := '\n' ∉ l ∧ '\r' ∉ l

instance : DecidablePred IsLine := fun l => inferInstanceAs (Decidable ('\n' ∉ l ∧ '\r' ∉ l))

theorem dropReturn_eq_self {l : List Char} (h : '\r' ∉ l) : dropReturn l = l := by
  refine if_neg fun hlast => h ?_
  exact List.mem_of_getLast? hlast

theorem lines_append {l : List Char} (h : IsLine l) (rest : List Char) :
    lines (l ++ '\n' :: rest) = l :: lines rest := by
  have hpieces : (l ++ '\n' :: rest).splitOn '\n' = l :: rest.splitOn '\n' :=
    List.splitOn_append_cons_self_of_not_mem h.1 rest
  have hne := List.splitOn_ne_nil '\n' rest
  simp only [lines, hpieces]
  rw [List.dropLast_cons_of_ne_nil hne, List.getLast?_cons_of_ne_nil hne, List.map_cons,
    dropReturn_eq_self h.2]
  rfl

theorem lines_of_not_mem {l : List Char} (h : '\n' ∉ l) (hne : l ≠ []) : lines l = [l] := by
  have hpieces : l.splitOn '\n' = [l] := List.splitOn_eq_singleton h
  simp [lines, hpieces, hne]

/-- Lines that each end with a line feed. -/
theorem lines_flatMap_append {ls : List (List Char)} (h : ∀ l ∈ ls, IsLine l) (rest : List Char) :
    lines (ls.flatMap (· ++ ['\n']) ++ rest) = ls ++ lines rest := by
  induction ls with
  | nil => rfl
  | cons l ls ih =>
    have hl := h l List.mem_cons_self
    have hls := ih fun l' hl' => h l' (List.mem_cons_of_mem l hl')
    rw [List.flatMap_cons, List.append_assoc, List.append_assoc, List.singleton_append,
      lines_append hl, hls]
    rfl

/-- Lines with a line feed between any two of them. -/
theorem lines_intercalate {ls : List (List Char)} (h : ∀ l ∈ ls, IsLine l ∧ l ≠ []) :
    lines (['\n'].intercalate ls) = ls := by
  induction ls with
  | nil => rfl
  | cons l ls ih =>
    obtain ⟨hl, hne⟩ := h l List.mem_cons_self
    have hls := ih fun l' hl' => h l' (List.mem_cons_of_mem l hl')
    cases ls with
    | nil => simpa using lines_of_not_mem hl.1 hne
    | cons l' ls =>
      rw [List.intercalate_cons_cons, List.append_assoc, List.singleton_append, lines_append hl,
        hls]

end Dcpu16.Text
