import Dcpu16.Proofs.Json.Literals

/-! The text of a value is scanned into its tokens.  A writer adds to what is written already, so
the statements follow a text while it grows: what it spells so far, and what it spells with the next
part behind it. -/

namespace Dcpu16.Json

open Decimal (Numeral)

/-! ### One token -/

/-- No number and no word goes on with this text. -/
def Closes (cs : List Char) : Prop := ∀ c ∈ cs.head?, isNumberPart c = false ∧ c.isAlpha = false

theorem scanFrom_space {c : Char} (h : isSpace c = true) (done : List Token) (cs : List Char) :
    scanFrom done (c :: cs) = scanFrom done cs := by
  rw [scanFrom, if_pos h]

theorem apart_of_ofMark? {c : Char} {t : Token} (h : Token.ofMark? c = some t) :
    isSpace c = false ∧ c ≠ '"' ∧ isNumberPart c = false ∧ c.isAlpha = false := by
  unfold Token.ofMark? at h
  split at h
  case h_7 => cases h
  all_goals decide

theorem scanFrom_mark {c : Char} {t : Token} (h : Token.ofMark? c = some t) (done : List Token)
    (cs : List Char) : scanFrom done (c :: cs) = scanFrom (t :: done) cs := by
  obtain ⟨hspace, hquote, hnumber, halpha⟩ := apart_of_ofMark? h
  rw [scanFrom]
  simp [hspace, hquote, hnumber, halpha, h]

theorem scanFrom_literal (s : Contents) (done : List Token) (rest : List Char) :
    scanFrom done ((literal s).toList ++ rest) =
      scanFrom (.scalar (.string s) :: done) rest := by
  obtain ⟨cs, ps, htext, hscan, rfl⟩ := scanString_literal s rest
  rw [htext, scanFrom]
  simp only [show isSpace '"' = false from rfl, Bool.false_eq_true, if_false,
    show ('"' == '"') = true from rfl, if_true]
  split
  · next ps' rest' hscan' =>
    obtain ⟨rfl, rfl⟩ := Prod.mk.inj (Option.some.inj (hscan.symm.trans hscan'))
    rfl
  · next hscan' => cases hscan.symm.trans hscan'

/-- Behind a run of like characters the text goes on with another one. -/
theorem takeWhile_run {p : Char → Bool} {run rest : List Char} (hrun : ∀ c ∈ run, p c = true)
    (hrest : ∀ c ∈ rest.head?, p c = false) :
    (run ++ rest).takeWhile p = run ∧ (run ++ rest).dropWhile p = rest := by
  rw [List.takeWhile_append_of_pos hrun, List.dropWhile_append_of_pos hrun]
  cases rest with
  | nil => simp
  | cons c rest => simp [hrest c rfl]

theorem scanFrom_numeral {n : Numeral} (h : Readable n) (done : List Token) {rest : List Char}
    (hrest : Closes rest) :
    scanFrom done (n.text.toList ++ rest) = scanFrom (.scalar (.number n) :: done) rest := by
  obtain ⟨hparts, hnumeral⟩ := h
  obtain ⟨htake, hdrop⟩ := takeWhile_run hparts fun c hc => (hrest c hc).1
  -- A numeral starts with its sign or with a digit.
  have hfirst : ∃ c cs, n.text.toList = c :: cs ∧ (c = '-' ∨ c.isDigit = true) := by
    cases hcs : n.text.toList with
    | nil => rw [hcs] at hnumeral; cases hnumeral
    | cons c cs =>
      refine ⟨c, cs, rfl, or_iff_not_imp_left.mpr fun hminus => ?_⟩
      by_contra hdigit
      rw [hcs, numeralOf?.eq_def] at hnumeral
      simp [hminus, hdigit] at hnumeral
  obtain ⟨c, cs, hcs, hc⟩ := hfirst
  have hpart : isNumberPart c = true := hparts c (by simp [hcs])
  have hne (x : Char) (hx : x ≠ '-' ∧ x.isDigit = false) : c ≠ x := by
    rintro rfl
    rcases hc with hc | hc
    · exact hx.1 hc
    · exact Bool.eq_false_iff.mp hx.2 hc
  have hspace : isSpace c = false := by
    simp [isSpace, hne ' ' (by decide), hne '\n' (by decide), hne '\t' (by decide),
      hne '\r' (by decide)]
  rw [hcs] at htake hdrop hnumeral ⊢
  rw [List.cons_append] at htake hdrop ⊢
  rw [scanFrom]
  simp [hspace, hpart, hne '"' (by decide), hne 'e' (by decide), hne 'E' (by decide), htake, hdrop,
    hnumeral]

theorem scanFrom_word {run : List Char} {v : Value} (h : wordOf? run = some v)
    (hrun : ∀ c ∈ run, c.isAlpha = true) {rest : List Char}
    (hfirst : ∀ c ∈ run.head?, isNumberPart c = false) (done : List Token) (hrest : Closes rest) :
    scanFrom done (run ++ rest) = scanFrom (.scalar v :: done) rest := by
  obtain ⟨htake, hdrop⟩ := takeWhile_run hrun fun c hc => (hrest c hc).2
  cases run with
  | nil => cases h
  | cons c cs =>
    have hnumber := hfirst c rfl
    have halpha := hrun c (by simp)
    have hne (x : Char) (hx : x.isAlpha = false) : c ≠ x := by
      rintro rfl
      exact Bool.eq_false_iff.mp hx halpha
    have hspace : isSpace c = false := by
      simp [isSpace, hne ' ' (by decide), hne '\n' (by decide), hne '\t' (by decide),
        hne '\r' (by decide)]
    rw [List.cons_append] at htake hdrop ⊢
    rw [scanFrom]
    simp [hspace, hne '"' (by decide), hnumber, halpha, htake, hdrop, h]

/-! ### Growing texts -/

/-- The text is scanned into the tokens, unless a number or word at its end goes on. -/
def Spells (out : String) (ts : List Token) : Prop :=
  ∀ done rest, Closes rest →
    scanFrom done (out.toList ++ rest) = scanFrom (ts.reverse ++ done) rest

/-- The text is scanned into the tokens, whatever comes behind it. -/
def SpellsOut (out : String) (ts : List Token) : Prop :=
  ∀ done rest, scanFrom done (out.toList ++ rest) = scanFrom (ts.reverse ++ done) rest

variable {out : String} {ts : List Token}

theorem spellsOut_empty : SpellsOut "" [] := fun _ _ => rfl

theorem SpellsOut.spells (h : SpellsOut out ts) : Spells out ts := fun done rest _ => h done rest

theorem Spells.mark (h : Spells out ts) {c : Char} {t : Token} (hc : Token.ofMark? c = some t) :
    SpellsOut (out ++ String.singleton c) (ts ++ [t]) := by
  intro done rest
  obtain ⟨-, -, happart⟩ := apart_of_ofMark? hc
  have hcloses : Closes (c :: rest) := by
    intro c' hc'
    obtain rfl : c = c' := by simpa using hc'
    exact happart
  rw [String.toList_append, String.toList_singleton, List.append_assoc, List.singleton_append,
    h _ _ hcloses, scanFrom_mark hc]
  simp

theorem SpellsOut.mark (h : SpellsOut out ts) {c : Char} {t : Token}
    (hc : Token.ofMark? c = some t) : SpellsOut (out ++ String.singleton c) (ts ++ [t]) :=
  h.spells.mark hc

theorem scanFrom_spaces {spaces : List Char} (h : ∀ c ∈ spaces, isSpace c = true)
    (done : List Token) (rest : List Char) :
    scanFrom done (spaces ++ rest) = scanFrom done rest := by
  induction spaces with
  | nil => rfl
  | cons c cs ih =>
    rw [List.cons_append, scanFrom_space (h c (by simp)), ih fun c hc => h c (by simp [hc])]

theorem closes_spaces {spaces rest : List Char} (h : ∀ c ∈ spaces, isSpace c = true)
    (hrest : Closes rest) : Closes (spaces ++ rest) := by
  cases spaces with
  | nil => exact hrest
  | cons c cs =>
    intro c' hc'
    obtain rfl : c = c' := by simpa using hc'
    have hc := h c (by simp)
    simp only [isSpace, Bool.or_eq_true, beq_iff_eq] at hc
    rcases hc with ((rfl | rfl) | rfl) | rfl <;> decide

theorem SpellsOut.spaces (h : SpellsOut out ts) {spaces : String}
    (hspaces : ∀ c ∈ spaces.toList, isSpace c = true) : SpellsOut (out ++ spaces) ts := by
  intro done rest
  rw [String.toList_append, List.append_assoc, h, scanFrom_spaces hspaces]

theorem Spells.spaces (h : Spells out ts) {spaces : String}
    (hspaces : ∀ c ∈ spaces.toList, isSpace c = true) : Spells (out ++ spaces) ts := by
  intro done rest hrest
  rw [String.toList_append, List.append_assoc, h _ _ (closes_spaces hspaces hrest),
    scanFrom_spaces hspaces]

theorem SpellsOut.literal (h : SpellsOut out ts) (s : Contents) :
    SpellsOut (out ++ Json.literal s) (ts ++ [.scalar (.string s)]) := by
  intro done rest
  rw [String.toList_append, List.append_assoc, h, scanFrom_literal]
  simp

end Dcpu16.Json
