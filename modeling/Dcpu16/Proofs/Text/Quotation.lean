import Dcpu16.Proofs.Text.Words
import Dcpu16.Text.Quotation

/-! Quotations in a text that is put together.  Marks before a part decide whether the part starts
in a quotation; behind a text with as many opening as closing marks it does not.  From there a
scanner for comments or separators goes on as it started. -/

namespace Dcpu16.Text

/-- Every quotation of the text is closed. -/
def Balanced (cs : List Char) : Prop := cs.count '"' % 2 = 0

instance : DecidablePred Balanced := fun cs => inferInstanceAs (Decidable (cs.count '"' % 2 = 0))

/-- The text opens a quotation that it does not close, or closes one that it has not opened. -/
def flips (cs : List Char) : Bool := cs.count '"' % 2 == 1

theorem flips_eq_false {cs : List Char} : flips cs = false ↔ Balanced cs := by
  simp [flips, Balanced]

theorem flips_cons (c : Char) (cs : List Char) : flips (c :: cs) = ((c == '"') != flips cs) := by
  by_cases h : c = '"'
  · subst h
    rcases Nat.mod_two_eq_zero_or_one (cs.count '"') with heven | hodd
    · simp [flips, Nat.add_mod, heven]
    · simp [flips, Nat.add_mod, hodd]
  · have hc : (c == '"') = false := beq_eq_false_iff_ne.mpr h
    simp [flips, h, hc]

theorem balanced_of_not_mem {cs : List Char} (h : '"' ∉ cs) : Balanced cs := by
  rw [Balanced, List.count_eq_zero_of_not_mem h]

theorem balanced_append {cs ds : List Char} (h : Balanced cs) :
    Balanced (cs ++ ds) ↔ Balanced ds := by
  unfold Balanced at *
  rw [List.count_append]
  omega

theorem quotedFrom_append (inside : Bool) (cs ds : List Char) :
    quotedFrom inside (cs ++ ds) =
      quotedFrom inside cs ++ quotedFrom (inside != flips cs) ds := by
  induction cs generalizing inside with
  | nil => simp [flips]
  | cons c cs ih => simp [ih, flips_cons]

theorem quoted_append {cs : List Char} (h : Balanced cs) (ds : List Char) :
    quoted (cs ++ ds) = quoted cs ++ quoted ds := by
  rw [quoted, quotedFrom_append, flips_eq_false.mpr h]
  rfl

theorem quotedFrom_of_not_mem {cs : List Char} (h : '"' ∉ cs) (inside : Bool) :
    quotedFrom inside cs = cs.map (·, inside) := by
  induction cs with
  | nil => rfl
  | cons c cs ih =>
    rw [List.mem_cons, not_or] at h
    have hc : (c == '"') = false := beq_eq_false_iff_ne.mpr (Ne.symm h.1)
    simp [ih h.2, hc]

theorem mem_quotedFrom {c : Char} {inside b : Bool} {cs : List Char} :
    (c, b) ∈ quotedFrom inside cs ↔
      ∃ before after, cs = before ++ c :: after ∧ b = (inside != flips before) := by
  constructor
  · intro h
    induction cs generalizing inside with
    | nil => cases h
    | cons d cs ih =>
      rw [quotedFrom_cons, List.mem_cons, Prod.mk.injEq] at h
      rcases h with ⟨rfl, rfl⟩ | h
      · exact ⟨[], cs, rfl, by simp [flips]⟩
      · obtain ⟨before, after, rfl, rfl⟩ := ih h
        exact ⟨d :: before, after, rfl, by rw [flips_cons, Bool.bne_assoc]⟩
  · rintro ⟨before, after, rfl, rfl⟩
    rw [quotedFrom_append, quotedFrom_cons]
    exact List.mem_append_right _ List.mem_cons_self

/-! ### The text before a separator -/

/-- Some `c` of the text stands outside quotations. -/
def Exposes (c : Char) (cs : List Char) : Prop :=
  ∃ before after, cs = before ++ c :: after ∧ Balanced before

theorem mem_quoted {c : Char} {cs : List Char} : (c, false) ∈ quoted cs ↔ Exposes c cs := by
  rw [quoted, mem_quotedFrom]
  refine exists₂_congr fun before after => and_congr_right fun _ => ?_
  rw [Bool.false_bne, eq_comm, flips_eq_false]

instance (c : Char) : DecidablePred (Exposes c) := fun cs =>
  decidable_of_iff ((c, false) ∈ quoted cs) mem_quoted

theorem exposes_append {c : Char} {cs : List Char} (h : Balanced cs) (ds : List Char) :
    Exposes c (cs ++ ds) ↔ Exposes c cs ∨ Exposes c ds := by
  rw [← mem_quoted, quoted_append h, List.mem_append, mem_quoted, mem_quoted]

theorem not_exposes_of_not_mem {c : Char} {cs : List Char} (h : c ∉ cs) : ¬Exposes c cs := by
  rintro ⟨before, after, rfl, -⟩
  simp at h

/-- Between two marks without a third one nothing is exposed. -/
theorem not_exposes_quotation {c : Char} {cs : List Char} (hc : c ≠ '"') (h : '"' ∉ cs) :
    ¬Exposes c ('"' :: cs ++ ['"']) := by
  rintro ⟨front, back, heq, hfront⟩
  cases front with
  | nil => exact hc (List.cons.inj heq).1.symm
  | cons d front =>
    rw [List.cons_append, List.cons_append] at heq
    obtain ⟨rfl, htail⟩ := List.cons_eq_cons.mp heq
    rcases List.append_eq_append_iff.mp htail with ⟨as, rfl, hlast⟩ | ⟨bs, rfl, -⟩
    · rcases List.cons_eq_append_iff.mp hlast with ⟨rfl, hmark⟩ | ⟨as', rfl, hnil⟩
      · exact hc (List.cons.inj hmark).1
      · simp at hnil
    · have hcount : front.count '"' = 0 :=
        List.count_eq_zero_of_not_mem fun hmem => h (List.mem_append_left _ hmem)
      rw [Balanced, List.count_cons_self, hcount] at hfront
      cases hfront

/-- The part of a text before the first `c` outside quotations, the text itself starting in a
quotation if `inside` says so. -/
def beforeFrom (inside : Bool) (c : Char) (cs : List Char) : List Char :=
  ((quotedFrom inside cs).takeWhile fun (d, inside) => inside || d != c).map Prod.fst

theorem all_quoted {c : Char} {cs : List Char} :
    (∀ p ∈ quoted cs, (p.2 || p.1 != c) = true) ↔ ¬Exposes c cs := by
  rw [← mem_quoted]
  constructor
  · intro h hmem
    have := h _ hmem
    simp at this
  · rintro h ⟨d, b⟩ hmem
    cases b with
    | true => rfl
    | false =>
      have hne : d ≠ c := by
        rintro rfl
        exact h hmem
      simpa using hne

theorem before_append_of_exposes {c : Char} {cs : List Char} (h : Exposes c cs) (ds : List Char) :
    before c (cs ++ ds) = before c cs := by
  have hshort : ¬∀ p ∈ quoted cs, (p.2 || p.1 != c) = true := fun hall => all_quoted.mp hall h
  rw [before, before, quoted, quotedFrom_append, List.takeWhile_append, if_neg]
  · rfl
  · intro hlength
    exact hshort (List.takeWhile_eq_self_iff.mp
      (List.IsPrefix.eq_of_length (List.takeWhile_prefix _) hlength))

theorem before_append {c : Char} {cs : List Char} (h : ¬Exposes c cs) (ds : List Char) :
    before c (cs ++ ds) = cs ++ beforeFrom (flips cs) c ds := by
  have hall : ∀ q ∈ quotedFrom false cs, (fun (d, inside) => inside || d != c) q = true :=
    all_quoted.mpr h
  rw [before, quoted, quotedFrom_append, List.takeWhile_append_of_pos hall, List.map_append,
    map_fst_quotedFrom, Bool.false_bne]
  rfl

theorem before_append_of_balanced {c : Char} {cs : List Char} (h : ¬Exposes c cs)
    (hcs : Balanced cs) (ds : List Char) : before c (cs ++ ds) = cs ++ before c ds := by
  rw [before_append h, flips_eq_false.mpr hcs]
  rfl

theorem before_eq_self {c : Char} {cs : List Char} (h : ¬Exposes c cs) : before c cs = cs := by
  have happend := before_append h []
  rwa [beforeFrom, quotedFrom_nil, List.append_nil, List.takeWhile_nil, List.map_nil,
    List.append_nil] at happend

/-- What follows a `c` outside quotations is cut off. -/
theorem before_append_cons {c : Char} {cs : List Char} (hcs : Balanced cs) (ds : List Char) :
    before c (cs ++ c :: ds) = before c cs := by
  by_cases h : Exposes c cs
  · exact before_append_of_exposes h _
  · rw [before_append_of_balanced h hcs, before_eq_self h]
    simp [before, quoted]

theorem Exposes.first {c : Char} {cs : List Char} (h : Exposes c cs) :
    ∃ front back, cs = front ++ c :: back ∧ Balanced front ∧ ¬Exposes c front := by
  obtain ⟨front, back, rfl, hfront⟩ := h
  induction hlength : front.length using Nat.strong_induction_on generalizing front back with
  | _ n ih =>
    by_cases hinner : Exposes c front
    · obtain ⟨front', back', rfl, hfront'⟩ := hinner
      rw [List.append_assoc]
      rw [List.length_append, List.length_cons] at hlength
      exact ih front'.length (by omega) front' (back' ++ c :: back) hfront' rfl
    · exact ⟨front, back, rfl, hfront, hinner⟩

/-- `code` is the part of the text before the first `c` outside quotations. -/
def IsBefore (c : Char) (cs code : List Char) : Prop :=
  ¬Exposes c code ∧ (cs = code ∨ Balanced code ∧ ∃ rest, cs = code ++ c :: rest)

theorem IsBefore.before_eq {c : Char} {cs code : List Char} (h : IsBefore c cs code) :
    before c cs = code := by
  obtain ⟨hcode, rfl | ⟨hclosed, rest, rfl⟩⟩ := h
  · exact before_eq_self hcode
  · rw [before_append_cons hclosed, before_eq_self hcode]

theorem isBefore_before (c : Char) (cs : List Char) : IsBefore c cs (before c cs) := by
  by_cases h : Exposes c cs
  · obtain ⟨front, back, rfl, hclosed, hfront⟩ := h.first
    rw [before_append_cons hclosed, before_eq_self hfront]
    exact ⟨hfront, .inr ⟨hclosed, back, rfl⟩⟩
  · rw [before_eq_self h]
    exact ⟨h, .inl rfl⟩

theorem before_subset (c : Char) (cs : List Char) : before c cs ⊆ cs := by
  have hprefix : before c cs <+: (quoted cs).map Prod.fst := (List.takeWhile_prefix _).map _
  rw [quoted, map_fst_quotedFrom] at hprefix
  exact hprefix.subset

theorem beforeFrom_gap {c : Char} {gap : List Char} (hc : isBlank c = false) (h : IsGap gap)
    (inside : Bool) : beforeFrom inside c gap = gap := by
  have hall : ∀ q ∈ gap.map (·, inside), (fun (d, inside) => inside || d != c) q = true := by
    intro q hq
    obtain ⟨d, hd, rfl⟩ := List.mem_map.mp hq
    have hne : d ≠ c := ne_of_mem_of_not_mem hd (h.not_mem hc)
    simp [hne]
  rw [beforeFrom, quotedFrom_of_not_mem (h.not_mem (by decide)),
    List.takeWhile_eq_self_iff.mpr hall, List.map_map]
  exact List.map_id gap

/-- Blanks at the ends of a text do not change where a separator is found. -/
theorem trim_before_gap {c : Char} {gap gap' : List Char} (hc : isBlank c = false)
    (hgap : IsGap gap) (hgap' : IsGap gap') (cs : List Char) :
    trim (before c (gap ++ cs ++ gap')) = trim (before c cs) := by
  have hfront : before c (gap ++ (cs ++ gap')) = gap ++ before c (cs ++ gap') :=
    before_append_of_balanced (not_exposes_of_not_mem (hgap.not_mem hc))
      (balanced_of_not_mem (hgap.not_mem (by decide))) _
  rw [List.append_assoc, hfront, trim_gap_append hgap]
  by_cases h : Exposes c cs
  · rw [before_append_of_exposes h]
  · rw [before_append h, beforeFrom_gap hc hgap', before_eq_self h, trim_append_gap hgap']

/-! ### Pieces -/

section Pieces

variable {α β : Type} {p : α → Bool}

theorem splitOnP_append_left {gap : List α} (h : ∀ c ∈ gap, p c = false) (xs : List α) :
    (gap ++ xs).splitOnP p = (xs.splitOnP p).modifyHead (gap ++ ·) := by
  induction gap with
  | nil =>
    rw [List.nil_append]
    cases xs.splitOnP p <;> rfl
  | cons c gap ih =>
    have hc := h c List.mem_cons_self
    rw [List.cons_append, List.splitOnP_cons_eq_if_modifyHead, if_neg (by simp [hc]),
      ih fun d hd => h d (List.mem_cons_of_mem c hd), List.modifyHead_modifyHead]
    rfl

theorem exists_splitOnP_append {gap : List α} (h : ∀ c ∈ gap, p c = false) (xs : List α) :
    ∃ init last, xs.splitOnP p = init ++ [last] ∧
      (xs ++ gap).splitOnP p = init ++ [last ++ gap] := by
  induction xs with
  | nil => exact ⟨[], [], List.splitOnP_nil, List.splitOnP_eq_singleton h⟩
  | cons x xs ih =>
    obtain ⟨init, last, hxs, hgap⟩ := ih
    rw [List.cons_append, List.splitOnP_cons_eq_if_modifyHead,
      List.splitOnP_cons_eq_if_modifyHead, hxs, hgap]
    split
    · exact ⟨[] :: init, last, rfl, rfl⟩
    · cases init with
      | nil => exact ⟨[], x :: last, rfl, rfl⟩
      | cons first init => exact ⟨(x :: first) :: init, last, rfl, rfl⟩

theorem mem_of_mem_splitOnP {xs piece : List α} {x : α} (hpiece : piece ∈ xs.splitOnP p)
    (hx : x ∈ piece) : x ∈ xs := by
  induction xs generalizing piece with
  | nil =>
    rw [List.splitOnP_nil, List.mem_singleton] at hpiece
    rwa [hpiece] at hx
  | cons y xs ih =>
    have hrest {piece : List α} (hpiece : piece ∈ xs.splitOnP p) (hx : x ∈ piece) : x ∈ y :: xs :=
      List.mem_cons_of_mem y (ih hpiece hx)
    rw [List.splitOnP_cons_eq_if_modifyHead] at hpiece
    split at hpiece
    · rcases List.mem_cons.mp hpiece with rfl | hpiece
      · cases hx
      · exact hrest hpiece hx
    · cases hsplit : xs.splitOnP p with
      | nil => simp [hsplit] at hpiece
      | cons first rest =>
        rw [hsplit, List.modifyHead_cons, List.mem_cons] at hpiece
        rcases hpiece with rfl | hpiece
        · rcases List.mem_cons.mp hx with rfl | hx
          · exact List.mem_cons_self
          · exact hrest (hsplit ▸ List.mem_cons_self) hx
        · exact hrest (hsplit ▸ List.mem_cons_of_mem first hpiece) hx

/-- What a reading of pieces ignores at their ends, it ignores at the ends of the whole. -/
theorem map_splitOnP_append {gap gap' : List α} {g : List α → β} (h : ∀ c ∈ gap, p c = false)
    (h' : ∀ c ∈ gap', p c = false) (hg : ∀ xs, g (gap ++ xs) = g xs)
    (hg' : ∀ xs, g (xs ++ gap') = g xs) (xs : List α) :
    ((gap ++ xs ++ gap').splitOnP p).map g = (xs.splitOnP p).map g := by
  obtain ⟨init, last, hxs, hgap⟩ := exists_splitOnP_append h' xs
  have hend : ((xs ++ gap').splitOnP p).map g = (xs.splitOnP p).map g := by
    rw [hxs, hgap, List.map_append, List.map_append, List.map_singleton, List.map_singleton, hg']
  rw [List.append_assoc, splitOnP_append_left h, ← hend]
  cases (xs ++ gap').splitOnP p with
  | nil => rfl
  | cons first rest => exact congrArg (· :: rest.map g) (hg first)

end Pieces

/-- The pieces of a text between the `c`s, without blanks at their ends. -/
def pieces (c : Char) (cs : List Char) : List (List Char) := (cs.splitOn c).map trim

/-- The pieces of a text between the `c`s outside quotations, without blanks at their ends. -/
def piecesOutside (c : Char) (cs : List Char) : List (List Char) := (splitOutside c cs).map trim

variable {c : Char} {gap gap' cs : List Char}

theorem pieces_append_cons (cs ds : List Char) :
    pieces c (cs ++ c :: ds) = pieces c cs ++ pieces c ds := by
  rw [pieces, List.splitOn, List.splitOnP_append_cons _ _ (by simp), List.map_append]
  rfl

theorem pieces_gap (hc : isBlank c = false) (hgap : IsGap gap) (hgap' : IsGap gap')
    (cs : List Char) : pieces c (gap ++ cs ++ gap') = pieces c cs := by
  have hother {gap : List Char} (h : IsGap gap) : ∀ d ∈ gap, (d == c) = false := by
    intro d hd
    exact beq_eq_false_iff_ne.mpr (ne_of_mem_of_not_mem hd (h.not_mem hc))
  exact map_splitOnP_append (hother hgap) (hother hgap') (trim_gap_append hgap)
    (trim_append_gap hgap') cs

theorem pieces_trim (hc : isBlank c = false) (cs : List Char) :
    pieces c (trim cs) = pieces c cs := by
  obtain ⟨gap, gap', hgap, hgap', hcs⟩ := exists_trim cs
  conv => rhs; rw [hcs]
  rw [pieces_gap hc hgap hgap']

/-- Blanks beside a separator do not count. -/
theorem pieces_separator (hc : isBlank c = false) (hgap : IsGap gap) (hgap' : IsGap gap')
    (left right : List Char) :
    pieces c (left ++ gap ++ c :: (gap' ++ right)) = pieces c (left ++ c :: right) := by
  have hleft := pieces_gap hc (nofun : IsGap []) hgap left
  have hright := pieces_gap hc hgap' (nofun : IsGap []) right
  rw [List.nil_append] at hleft
  rw [List.append_nil] at hright
  rw [pieces_append_cons, pieces_append_cons, hleft, hright]

theorem pieces_of_not_mem (h : c ∉ cs) : pieces c cs = [trim cs] := by
  rw [pieces, List.splitOn_eq_singleton h, List.map_singleton]

theorem splitOutside_append_cons (hc : c ≠ '"') (hcs : Balanced cs) (ds : List Char) :
    splitOutside c (cs ++ c :: ds) = splitOutside c cs ++ splitOutside c ds := by
  have hquoted : quoted (cs ++ c :: ds) = quoted cs ++ (c, false) :: quoted ds := by
    have hcut : quoted (c :: ds) = (c, false) :: quoted ds := by
      rw [quoted, quotedFrom_cons, beq_eq_false_iff_ne.mpr hc]
      rfl
    rw [quoted_append hcs, hcut]
  rw [splitOutside, hquoted, List.splitOnP_append_cons _ _ (by simp), List.map_append]
  rfl

theorem splitOutside_of_not_exposes (h : ¬Exposes c cs) : splitOutside c cs = [cs] := by
  have hnone : ∀ q ∈ quoted cs, (!q.2 && q.1 == c) = false := by
    rintro ⟨d, b⟩ hq
    by_contra hcut
    rw [Bool.not_eq_false, Bool.and_eq_true, Bool.not_eq_true', beq_iff_eq] at hcut
    obtain ⟨rfl, rfl⟩ := hcut
    exact h (mem_quoted.mp hq)
  rw [splitOutside, List.splitOnP_eq_singleton hnone, List.map_singleton]
  exact congrArg (fun cs => [cs]) (map_fst_quotedFrom false cs)

/-- The text is these pieces, with a `c` outside quotations between any two of them, and no piece
has a further one. -/
inductive IsCut (c : Char) : List Char → List (List Char) → Prop
  | last {piece : List Char} : ¬Exposes c piece → IsCut c piece [piece]
  | cons {piece rest : List Char} {ps : List (List Char)} : ¬Exposes c piece → Balanced piece →
      IsCut c rest ps → IsCut c (piece ++ c :: rest) (piece :: ps)

theorem IsCut.splitOutside_eq {ps : List (List Char)} (hc : c ≠ '"') (h : IsCut c cs ps) :
    splitOutside c cs = ps := by
  induction h with
  | last hpiece => exact splitOutside_of_not_exposes hpiece
  | cons hpiece hclosed _ ih =>
    rw [splitOutside_append_cons hc hclosed, splitOutside_of_not_exposes hpiece, ih,
      List.singleton_append]

theorem exists_isCut (c : Char) (cs : List Char) : ∃ ps, IsCut c cs ps := by
  induction hlength : cs.length using Nat.strong_induction_on generalizing cs with
  | _ n ih =>
    by_cases h : Exposes c cs
    · obtain ⟨piece, rest, rfl, hclosed, hpiece⟩ := h.first
      rw [List.length_append, List.length_cons] at hlength
      obtain ⟨ps, hps⟩ := ih rest.length (by omega) rest rfl
      exact ⟨piece :: ps, .cons hpiece hclosed hps⟩
    · exact ⟨[cs], .last h⟩

theorem piecesOutside_append_cons (hc : c ≠ '"') (hcs : Balanced cs) (ds : List Char) :
    piecesOutside c (cs ++ c :: ds) = piecesOutside c cs ++ piecesOutside c ds := by
  rw [piecesOutside, splitOutside_append_cons hc hcs, List.map_append]
  rfl

theorem IsGap.mark_not_mem (h : IsGap gap) : '"' ∉ gap := h.not_mem (by decide)

theorem piecesOutside_gap (hc : isBlank c = false) (hgap : IsGap gap) (hgap' : IsGap gap')
    (cs : List Char) : piecesOutside c (gap ++ cs ++ gap') = piecesOutside c cs := by
  have hother {gap : List Char} (h : IsGap gap) (b : Bool) :
      ∀ q ∈ gap.map (·, b), (!q.2 && q.1 == c) = false := by
    rintro _ hq
    obtain ⟨d, hd, rfl⟩ := List.mem_map.mp hq
    have hne : d ≠ c := ne_of_mem_of_not_mem hd (h.not_mem hc)
    simp [hne]
  have hfirst (gap : List Char) (b : Bool) : (gap.map (·, b)).map Prod.fst = gap := by
    simp [Function.comp_def]
  have hquoted : quoted (gap ++ cs ++ gap') =
      gap.map (·, false) ++ quoted cs ++ gap'.map (·, flips cs) := by
    have hopen : quoted gap = gap.map (·, false) := quotedFrom_of_not_mem hgap.mark_not_mem false
    have hclose : quoted (cs ++ gap') = quoted cs ++ gap'.map (·, flips cs) := by
      rw [quoted, quotedFrom_append, quotedFrom_of_not_mem hgap'.mark_not_mem, Bool.false_bne]
      rfl
    rw [List.append_assoc, quoted_append (balanced_of_not_mem hgap.mark_not_mem), hopen, hclose,
      List.append_assoc]
  rw [piecesOutside, splitOutside, hquoted, List.map_map]
  refine (map_splitOnP_append (hother hgap false) (hother hgap' _) ?_ ?_ (quoted cs)).trans ?_
  · intro qs
    show trim ((_ ++ qs).map Prod.fst) = trim (qs.map Prod.fst)
    rw [List.map_append, hfirst, trim_gap_append hgap]
  · intro qs
    show trim ((qs ++ _).map Prod.fst) = trim (qs.map Prod.fst)
    rw [List.map_append, hfirst, trim_append_gap hgap']
  · rw [piecesOutside, splitOutside, List.map_map]

theorem piecesOutside_separator (hc : isBlank c = false) (hmark : c ≠ '"') (hgap : IsGap gap)
    (hgap' : IsGap gap') {left : List Char} (hclosed : Balanced left) (right : List Char) :
    piecesOutside c (left ++ gap ++ c :: (gap' ++ right)) =
      piecesOutside c (left ++ c :: right) := by
  have hclosed' : Balanced (left ++ gap) :=
    (balanced_append hclosed).mpr (balanced_of_not_mem hgap.mark_not_mem)
  have hleft := piecesOutside_gap hc (nofun : IsGap []) hgap left
  have hright := piecesOutside_gap hc hgap' (nofun : IsGap []) right
  rw [List.nil_append] at hleft
  rw [List.append_nil] at hright
  rw [piecesOutside_append_cons hmark hclosed', piecesOutside_append_cons hmark hclosed, hleft,
    hright]

theorem piecesOutside_trim (hc : isBlank c = false) (cs : List Char) :
    piecesOutside c (trim cs) = piecesOutside c cs := by
  obtain ⟨gap, gap', hgap, hgap', hcs⟩ := exists_trim cs
  conv => rhs; rw [hcs]
  rw [piecesOutside_gap hc hgap hgap']

theorem piecesOutside_subset {piece : List Char} (h : piece ∈ piecesOutside c cs) :
    piece ⊆ cs := by
  obtain ⟨whole, hwhole, rfl⟩ := List.mem_map.mp h
  obtain ⟨qs, hqs, rfl⟩ := List.mem_map.mp hwhole
  intro d hd
  obtain ⟨q, hq, rfl⟩ := List.mem_map.mp (trim_subset _ hd)
  rw [← map_fst_quotedFrom false cs]
  exact List.mem_map_of_mem (mem_of_mem_splitOnP hqs hq)

/-- A part of a text that is a piece of it can be replaced by another piece. -/
theorem exists_pieces_between {left right : List Char}
    (hleft : left = [] ∨ ∃ first, left = first ++ [c])
    (hright : right = [] ∨ ∃ rest, right = c :: rest) :
    ∃ before after, ∀ piece, c ∉ piece →
      pieces c (left ++ (piece ++ right)) = before ++ trim piece :: after := by
  obtain ⟨after, hafter⟩ : ∃ after, ∀ piece, c ∉ piece →
      pieces c (piece ++ right) = trim piece :: after := by
    rcases hright with rfl | ⟨rest, rfl⟩
    · refine ⟨[], fun piece hpiece => ?_⟩
      rw [List.append_nil, pieces_of_not_mem hpiece]
    · refine ⟨pieces c rest, fun piece hpiece => ?_⟩
      rw [pieces_append_cons, pieces_of_not_mem hpiece, List.singleton_append]
  rcases hleft with rfl | ⟨first, rfl⟩
  · exact ⟨[], after, hafter⟩
  · refine ⟨pieces c first, after, fun piece hpiece => ?_⟩
    rw [List.append_assoc, List.singleton_append, pieces_append_cons, hafter piece hpiece]

end Dcpu16.Text
