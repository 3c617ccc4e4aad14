import Mathlib.Data.List.Basic
import Mathlib.Data.List.TakeWhile
import Dcpu16.Text.Blank

/-! Words with blanks between them are read as they were written, and so are a text with blanks
around it and a text before a separator. -/

namespace Dcpu16.Text

/-- A text without blanks. -/
def IsSolid (cs : List Char) : Prop := ∀ c ∈ cs, isBlank c = false

instance : DecidablePred IsSolid := fun cs =>
  decidable_of_iff (cs.all (!isBlank ·) = true) (by simp [IsSolid])

theorem isSolid_takeWhile (cs : List Char) : IsSolid (cs.takeWhile (!isBlank ·)) := by
  intro c hc
  simpa using List.mem_takeWhile_imp hc

theorem IsSolid.append {cs ds : List Char} (h : IsSolid cs) (h' : IsSolid ds) :
    IsSolid (cs ++ ds) := by
  intro c hc
  rcases List.mem_append.mp hc with hc | hc
  · exact h c hc
  · exact h' c hc

theorem IsSolid.any_isBlank {cs : List Char} (h : IsSolid cs) : cs.any isBlank = false :=
  List.any_eq_false.mpr fun c hc => by simp [h c hc]

theorem trimStart_eq_self {cs : List Char} (h : ∀ c ∈ cs.head?, isBlank c = false) :
    trimStart cs = cs := by
  cases cs with
  | nil => rfl
  | cons c cs => simp [trimStart, h c rfl]

theorem trim_eq_self {cs : List Char} (hfirst : ∀ c ∈ cs.head?, isBlank c = false)
    (hlast : ∀ c ∈ cs.getLast?, isBlank c = false) : trim cs = cs := by
  have hend : trimStart cs.reverse = cs.reverse := by
    apply trimStart_eq_self
    rwa [List.head?_reverse]
  rw [trim, trimStart_eq_self hfirst, trimEnd, ← trimStart, hend, List.reverse_reverse]

theorem IsSolid.trim {cs : List Char} (h : IsSolid cs) : trim cs = cs :=
  trim_eq_self (fun c hc => h c (List.mem_of_head? hc)) fun c hc => h c (List.mem_of_getLast? hc)

/-- Only the ends of a text decide what trimming removes. -/
theorem trim_append_append {pre post : List Char} (hpre : IsSolid pre) (hpost : IsSolid post)
    (hpre' : pre ≠ []) (hpost' : post ≠ []) (cs : List Char) :
    trim (pre ++ cs ++ post) = pre ++ cs ++ post := by
  apply trim_eq_self
  · intro c hc
    rw [List.append_assoc, List.head?_append_of_ne_nil _ hpre'] at hc
    exact hpre c (List.mem_of_head? hc)
  · intro c hc
    rw [List.getLast?_append_of_ne_nil _ hpost'] at hc
    exact hpost c (List.mem_of_getLast? hc)

theorem trim_enclosed {c d : Char} (hc : isBlank c = false) (hd : isBlank d = false)
    (cs : List Char) : trim (c :: cs ++ [d]) = c :: cs ++ [d] := by
  have hsingle {c : Char} (hc : isBlank c = false) : IsSolid [c] := by
    intro e he
    rwa [List.mem_singleton.mp he]
  exact trim_append_append (hsingle hc) (hsingle hd) (List.cons_ne_nil c [])
    (List.cons_ne_nil d []) cs

/-! ### Blanks at the ends -/

/-- A text of blanks. -/
def IsGap (cs : List Char) : Prop := ∀ c ∈ cs, isBlank c = true

instance : DecidablePred IsGap := fun cs =>
  decidable_of_iff (cs.all isBlank = true) List.all_eq_true

theorem isGap_replicate {c : Char} (h : isBlank c = true) (n : Nat) :
    IsGap (List.replicate n c) := by
  intro d hd
  rwa [(List.mem_replicate.mp hd).2]

theorem IsGap.not_mem {gap : List Char} (h : IsGap gap) {c : Char} (hc : isBlank c = false) :
    c ∉ gap := by
  intro hmem
  rw [h c hmem] at hc
  cases hc

theorem not_mem_around {c : Char} {gap gap' cs : List Char} (hc : isBlank c = false)
    (hgap : IsGap gap) (hgap' : IsGap gap') (hcs : c ∉ cs) : c ∉ gap ++ cs ++ gap' := by
  rw [List.mem_append, List.mem_append]
  rintro ((h | h) | h)
  · exact hgap.not_mem hc h
  · exact hcs h
  · exact hgap'.not_mem hc h

theorem IsGap.append {gap gap' : List Char} (h : IsGap gap) (h' : IsGap gap') :
    IsGap (gap ++ gap') := by
  intro c hc
  rcases List.mem_append.mp hc with hc | hc
  · exact h c hc
  · exact h' c hc

theorem IsGap.head {gap : List Char} (h : IsGap gap) : ∀ c ∈ gap.head?, isBlank c = true := by
  intro c hc
  exact h c (List.mem_of_head? hc)

theorem head_cons {c : Char} (h : isBlank c = true) (cs : List Char) :
    ∀ d ∈ (c :: cs).head?, isBlank d = true := by
  rintro d ⟨⟩
  exact h

theorem head_append_gap {cs gap : List Char} (h : ∀ c ∈ cs.head?, isBlank c = true)
    (hgap : IsGap gap) : ∀ c ∈ (cs ++ gap).head?, isBlank c = true := by
  cases cs with
  | nil => exact hgap.head
  | cons d cs => exact h

theorem head_dropWhile (cs : List Char) :
    ∀ c ∈ (cs.dropWhile (!isBlank ·)).head?, isBlank c = true := by
  intro c hc
  have hhead := List.head?_dropWhile_not (!isBlank ·) cs
  rw [Option.mem_def.mp hc] at hhead
  simpa using hhead

theorem IsGap.trimStart {gap : List Char} (h : IsGap gap) : trimStart gap = [] :=
  List.dropWhile_eq_nil_iff.mpr h

theorem trimEnd_append {gap : List Char} (h : IsGap gap) (cs : List Char) :
    trimEnd (cs ++ gap) = trimEnd cs := by
  have hback : ∀ c ∈ gap.reverse, isBlank c = true := fun c hc => h c (List.mem_reverse.mp hc)
  rw [trimEnd, List.reverse_append, List.dropWhile_append_of_pos hback, trimEnd]

theorem trim_append_gap {gap : List Char} (h : IsGap gap) (cs : List Char) :
    trim (cs ++ gap) = trim cs := by
  rw [trim, trim, trimStart, List.dropWhile_append, ← trimStart, ← trimStart, h.trimStart]
  split
  · next hempty => rw [List.isEmpty_iff.mp hempty]
  · exact trimEnd_append h _

theorem trim_gap_append {gap : List Char} (h : IsGap gap) (cs : List Char) :
    trim (gap ++ cs) = trim cs := by
  rw [trim, trimStart, List.dropWhile_append_of_pos h, ← trimStart, trim]

theorem IsGap.trim {gap : List Char} (h : IsGap gap) : trim gap = [] := by
  have hall := trim_gap_append h []
  rwa [List.append_nil] at hall

theorem trim_cons {c : Char} (h : isBlank c = true) (cs : List Char) :
    trim (c :: cs) = trim cs :=
  trim_gap_append (isGap_replicate h 1) cs

theorem isGap_takeWhile (cs : List Char) : IsGap (cs.takeWhile isBlank) :=
  List.all_eq_true.mp List.all_takeWhile

theorem exists_trimEnd (cs : List Char) : ∃ gap, IsGap gap ∧ cs = trimEnd cs ++ gap := by
  refine ⟨(cs.reverse.takeWhile isBlank).reverse, ?_, ?_⟩
  · intro c hc
    exact isGap_takeWhile _ c (List.mem_reverse.mp hc)
  · rw [trimEnd, ← List.reverse_append, List.takeWhile_append_dropWhile, List.reverse_reverse]

/-- A text is what trimming leaves of it, with blanks around it. -/
theorem exists_trim (cs : List Char) :
    ∃ gap gap', IsGap gap ∧ IsGap gap' ∧ cs = gap ++ trim cs ++ gap' := by
  obtain ⟨gap', hgap', hend⟩ := exists_trimEnd (trimStart cs)
  refine ⟨cs.takeWhile isBlank, gap', isGap_takeWhile cs, hgap', ?_⟩
  rw [List.append_assoc]
  show cs = cs.takeWhile isBlank ++ (trimEnd (trimStart cs) ++ gap')
  rw [← hend, trimStart, List.takeWhile_append_dropWhile]

theorem trim_subset (cs : List Char) : trim cs ⊆ cs := by
  intro c hc
  obtain ⟨gap, gap', -, -, hcs⟩ := exists_trim cs
  rw [hcs]
  exact List.mem_append_left _ (List.mem_append_right _ hc)

theorem mem_trim {c : Char} {cs : List Char} (hc : isBlank c = false) (hmem : c ∈ cs) :
    c ∈ trim cs := by
  obtain ⟨gap, gap', hgap, hgap', hcs⟩ := exists_trim cs
  rw [hcs, List.mem_append, List.mem_append] at hmem
  rcases hmem with (hmem | hmem) | hmem
  · exact absurd (hgap c hmem) (by simp [hc])
  · exact hmem
  · exact absurd (hgap' c hmem) (by simp [hc])

theorem trimEnd_append_of_solid {cs : List Char} (h : IsSolid cs) (ds : List Char) :
    trimEnd (cs ++ ds) = cs ++ trimEnd ds := by
  have hstart : trimStart cs.reverse = cs.reverse :=
    trimStart_eq_self fun c hc => h c (List.mem_reverse.mp (List.mem_of_head? hc))
  rw [trimEnd, List.reverse_append, List.dropWhile_append, ← trimStart, ← trimStart, hstart,
    trimEnd, ← trimStart]
  split
  · next hempty => rw [List.isEmpty_iff.mp hempty, List.reverse_reverse, List.reverse_nil,
      List.append_nil]
  · rw [List.reverse_append, List.reverse_reverse]

theorem isBlank_of_mem_head?_trim {c : Char} {cs : List Char} (hc : c ∈ (trim cs).head?) :
    isBlank c = false := by
  obtain ⟨gap, -, hcs⟩ := exists_trimEnd (trimStart cs)
  have hhead : c ∈ (trimStart cs).head? := by
    rw [hcs]
    exact List.mem_head?_append_of_mem_head? hc
  have hstart := List.head?_dropWhile_not isBlank cs
  rw [trimStart] at hhead
  rw [Option.mem_def.mp hhead] at hstart
  exact hstart

/-! ### Words -/

theorem words_cons {c : Char} (h : isBlank c = true) (cs : List Char) :
    words (c :: cs) = words cs := by
  simp [words, List.splitOnP_cons_eq_if_modifyHead, h]

theorem words_append {w : List Char} (h : IsSolid w) (hne : w ≠ []) {c : Char}
    (hc : isBlank c = true) (rest : List Char) : words (w ++ c :: rest) = w :: words rest := by
  simp [words, List.splitOnP_append_cons_of_forall_mem h c hc rest, hne]

theorem words_replicate {c : Char} (h : isBlank c = true) (n : Nat) :
    words (List.replicate n c) = [] := by
  induction n with
  | zero => rfl
  | succ n ih => rw [List.replicate_succ, words_cons h, ih]

theorem words_of_isSolid {w : List Char} (h : IsSolid w) (hne : w ≠ []) : words w = [w] := by
  have hpieces : w.splitOnP isBlank = [w] := List.splitOnP_eq_singleton h
  simp [words, hpieces, hne]

/-- Words with a blank between any two of them, and blanks or nothing behind the last. -/
theorem words_intercalate {ws : List (List Char)} (h : ∀ w ∈ ws, IsSolid w ∧ w ≠ []) (n : Nat) :
    words ([' '].intercalate ws ++ List.replicate n ' ') = ws := by
  induction ws with
  | nil => exact words_replicate rfl n
  | cons w ws ih =>
    obtain ⟨hw, hne⟩ := h w List.mem_cons_self
    have hws := ih fun w' hw' => h w' (List.mem_cons_of_mem w hw')
    cases ws with
    | nil =>
      rw [List.intercalate_singleton]
      cases n with
      | zero => rw [List.replicate_zero, List.append_nil, words_of_isSolid hw hne]
      | succ n => rw [List.replicate_succ, words_append hw hne rfl, words_replicate rfl]
    | cons w' ws =>
      rw [List.intercalate_cons_cons, List.append_assoc, List.append_assoc, List.singleton_append,
        words_append hw hne rfl, hws]

/-! ### Separators -/

theorem takeWhile_append_cons {c : Char} {cs : List Char} (h : c ∉ cs) (rest : List Char) :
    (cs ++ c :: rest).takeWhile (· != c) = cs := by
  have hother : ∀ d ∈ cs, (d != c) = true := fun d hd => by simpa using ne_of_mem_of_not_mem hd h
  rw [List.takeWhile_append_of_pos hother, List.takeWhile_cons_of_neg (by simp), List.append_nil]

theorem dropWhile_append_cons {c : Char} {cs : List Char} (h : c ∉ cs) (rest : List Char) :
    (cs ++ c :: rest).dropWhile (· != c) = c :: rest := by
  have hother : ∀ d ∈ cs, (d != c) = true := fun d hd => by simpa using ne_of_mem_of_not_mem hd h
  rw [List.dropWhile_append_of_pos hother, List.dropWhile_cons_of_neg (by simp)]

end Dcpu16.Text
