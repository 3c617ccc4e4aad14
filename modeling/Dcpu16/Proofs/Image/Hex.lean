import Dcpu16.Image.Hex
import Dcpu16.Proofs.Disassembly.Characters
import Dcpu16.Proofs.Except

/-! A text image reads back as the program that it was written for.  Each of its rows holds the
words of one instruction before its comment, and the rows together hold all words in order. -/

namespace Dcpu16.Image.Hex

/-! ### Words -/

theorem dropMark_eq_self {cs : List Char} (hlower : 'x' ∉ cs) (hupper : 'X' ∉ cs) :
    dropMark cs = cs := by
  unfold dropMark
  split
  · simp at hlower
  · simp at hupper
  · rfl

theorem word?_hex4 (w : UInt16) : word? (Text.hex4 w.toNat).toList = some w := by
  have habsent {c : Char} (hc : c ∉ Text.hexDigits) : c ∉ (Text.hex4 w.toNat).toList :=
    fun h => hc (Text.hex4_subset _ h)
  have hword : w.toNat ≤ 0xFFFF := by
    have := w.toNat_lt
    omega
  rw [word?, dropMark_eq_self (habsent (by decide)) (habsent (by decide)),
    Text.readUnsigned?_eq (habsent (by decide)), Text.readNat?_hex4]
  simp [hword]

theorem readWord_hex4 (line : Nat) (w : UInt16) :
    readWord line (Text.hex4 w.toNat).toList = .ok w := by
  rw [readWord, word?_hex4]

theorem intercalate_subset {sep cs : List Char} {ls : List (List Char)} (hsep : sep ⊆ cs)
    (h : ∀ l ∈ ls, l ⊆ cs) : sep.intercalate ls ⊆ cs := by
  induction ls with
  | nil => exact List.nil_subset cs
  | cons l ls ih =>
    have hl := h l List.mem_cons_self
    have hls := ih fun l' hl' => h l' (List.mem_cons_of_mem l hl')
    cases ls with
    | nil => rwa [List.intercalate_singleton]
    | cons l' ls =>
      rw [List.intercalate_cons_cons, List.append_subset, List.append_subset]
      exact ⟨⟨hl, hsep⟩, hls⟩

theorem intercalate_hex4_subset (ws : List UInt16) :
    [' '].intercalate (ws.map fun w => (Text.hex4 w.toNat).toList) ⊆ ' ' :: Text.hexDigits := by
  apply intercalate_subset
  · simp
  · intro l hl
    obtain ⟨w, -, rfl⟩ := List.mem_map.mp hl
    exact List.Subset.trans (Text.hex4_subset w.toNat) (List.subset_cons_self _ _)

/-- Words in their digits, with a blank between any two of them. -/
theorem words_hex4 (ws : List UInt16) (n : Nat) :
    Text.words ([' '].intercalate (ws.map fun w => (Text.hex4 w.toNat).toList) ++
      List.replicate n ' ') = ws.map fun w => (Text.hex4 w.toNat).toList := by
  apply Text.words_intercalate
  intro l hl
  obtain ⟨w, -, rfl⟩ := List.mem_map.mp hl
  have hsubset := List.Subset.trans (Text.hex4_subset w.toNat) hexDigits_subset
  exact ⟨isSolid_of_subset hsubset, by simp [Text.hex4]⟩

/-! ### Rows -/

/-- The words of a row with the blanks behind them. -/
def Group.column (g : Group) : List Char :=
  let words := g.words.map fun w => Text.hex4 w.toNat
  [' '].intercalate (words.map String.toList) ++
    List.replicate (15 - (" ".intercalate words).length + 1) ' '

/-- A row without its line end. -/
def Group.row (g : Group) : List Char :=
  g.column ++ ';' :: ' ' :: ((Text.hex4 g.start).toList ++ ':' :: ' ' :: g.comment.toList)

theorem Group.toList_render (g : Group) : g.render.toList = g.row ++ ['\n'] := by
  simp [render, row, column, Text.padRight, toString, List.replicate_succ', Function.comp_def]

theorem Group.column_subset (g : Group) : g.column ⊆ ' ' :: Text.hexDigits := by
  rw [column, List.map_map, List.append_subset]
  constructor
  · exact intercalate_hex4_subset g.words
  · exact List.Subset.trans (List.replicate_subset_singleton _ ' ') (by simp)

theorem Group.isLine_comment (g : Group) : Text.IsLine g.comment.toList := by
  unfold comment
  split
  · exact ⟨by decide, by decide⟩
  · split
    · exact Instruction.isLine_text _ _
    · exact ⟨by decide, by decide⟩

theorem Group.isLine_row (g : Group) : Text.IsLine g.row := by
  have hcolumn {c : Char} (hc : c ∉ ' ' :: Text.hexDigits) : c ∉ g.column :=
    fun h => hc (g.column_subset h)
  have hstart {c : Char} (hc : c ∉ Text.hexDigits) : c ∉ (Text.hex4 g.start).toList :=
    fun h => hc (Text.hex4_subset g.start h)
  obtain ⟨hfeed, hreturn⟩ := g.isLine_comment
  constructor
  · simp [row, hcolumn (c := '\n') (by decide), hstart (c := '\n') (by decide), hfeed]
  · simp [row, hcolumn (c := '\r') (by decide), hstart (c := '\r') (by decide), hreturn]

theorem Group.words_code_row (g : Group) :
    Text.words (code g.row) = g.words.map fun w => (Text.hex4 w.toNat).toList := by
  have hcode : code g.row = g.column :=
    Text.takeWhile_append_cons (fun h => absurd (g.column_subset h) (by decide)) _
  rw [hcode, column, List.map_map]
  exact words_hex4 g.words _

/-! ### Programs -/

theorem map_snd_tokens (text : List Char) :
    (tokens text).map Prod.snd = (Text.lines text).flatMap fun line => Text.words (code line) := by
  calc
    (tokens text).map Prod.snd
    _ = ((Text.lines text).zipIdx 1).flatMap fun line => Text.words (code line.1) := by
      simp [tokens, List.map_flatMap, Function.comp_def]
    _ = (((Text.lines text).zipIdx 1).map Prod.fst).flatMap fun line => Text.words (code line) := by
      rw [List.flatMap_map]
    _ = _ := by rw [List.zipIdx_map_fst]

theorem flatMap_words_groupsFrom (start : Nat) (done : List Group) (ws : List UInt16) :
    (groupsFrom start done ws).flatMap Group.words = done.reverse.flatMap Group.words ++ ws := by
  induction start, done, ws using groupsFrom.induct with
  | case1 start done => simp [groupsFrom]
  | case2 start done w ws words ih =>
    rw [groupsFrom, ih, List.reverse_cons, List.flatMap_append, List.append_assoc]
    congr 1
    simp [words, List.take_append_drop]

theorem flatMap_words_groups (program : List UInt16) :
    (groups program).flatMap Group.words = program := by
  rw [groups, flatMap_words_groupsFrom]
  rfl

theorem isLine_toDigits (n : Nat) : Text.IsLine (Nat.toDigits 10 n) := by
  have hdigit {c : Char} (hc : c ∈ Nat.toDigits 10 n) : c.isDigit = true :=
    Nat.isDigit_of_mem_toDigits (by decide) (by decide) hc
  exact ⟨fun h => absurd (hdigit h) (by decide), fun h => absurd (hdigit h) (by decide)⟩

theorem toList_heading (n : Nat) (rows : String) :
    (s!"; DCPU-16 program image\n; {n} words\n\n" ++ rows).toList =
      "; DCPU-16 program image".toList ++ '\n' ::
        (';' :: ' ' :: (Nat.toDigits 10 n ++ " words".toList) ++ '\n' ::
          ([] ++ '\n' :: rows.toList)) := by
  have hopening : (toString "; DCPU-16 program image\n; ").toList =
      "; DCPU-16 program image".toList ++ ['\n', ';', ' '] := by decide
  have hclosing : (toString " words\n\n").toList = " words".toList ++ ['\n', '\n'] := by decide
  simp only [String.toList_append, hopening, hclosing, Nat.toString_eq_ofList_toDigits,
    String.toList_ofList]
  simp

theorem toList_render (program : List UInt16) :
    (render program).toList =
      "; DCPU-16 program image".toList ++ '\n' ::
        (';' :: ' ' :: (Nat.toDigits 10 program.length ++ " words".toList) ++ '\n' ::
          ([] ++ '\n' :: (((groups program).map Group.row).flatMap (· ++ ['\n']) ++ []))) := by
  have hrows : (String.join ((groups program).map Group.render)).toList =
      ((groups program).map Group.row).flatMap (· ++ ['\n']) := by
    simp [Group.toList_render, List.flatMap_map]
  unfold render
  rw [toList_heading, hrows, List.append_nil]

theorem lines_render (program : List UInt16) :
    ∃ title size, Text.lines (render program).toList =
      (';' :: title) :: (';' :: size) :: [] :: (groups program).map Group.row := by
  have htitle : Text.IsLine "; DCPU-16 program image".toList := by decide
  have hsize : Text.IsLine (';' :: ' ' :: (Nat.toDigits 10 program.length ++ " words".toList)) := by
    obtain ⟨hfeed, hreturn⟩ := isLine_toDigits program.length
    constructor
    · simp [hfeed]
    · simp [hreturn]
  have hempty : Text.IsLine [] := by decide
  have hrows : ∀ l ∈ (groups program).map Group.row, Text.IsLine l := by
    intro l hl
    obtain ⟨g, -, rfl⟩ := List.mem_map.mp hl
    exact g.isLine_row
  rw [toList_render, Text.lines_append htitle, Text.lines_append hsize, Text.lines_append hempty,
    Text.lines_flatMap_append hrows, Text.lines_nil, List.append_nil]
  exact ⟨_, _, rfl⟩

theorem parse_render (program : List UInt16) : parse (render program).toList = .ok program := by
  obtain ⟨title, size, hlines⟩ := lines_render program
  have htokens : (tokens (render program).toList).map Prod.snd =
      program.map fun w => (Text.hex4 w.toNat).toList := by
    have hcomment (cs : List Char) : Text.words (code (';' :: cs)) = [] := rfl
    have hrow : (fun g : Group => Text.words (code g.row)) =
        fun g => g.words.map fun w => (Text.hex4 w.toNat).toList := funext Group.words_code_row
    rw [map_snd_tokens, hlines, List.flatMap_cons, List.flatMap_cons, List.flatMap_cons, hcomment,
      hcomment, List.flatMap_map, hrow, ← List.map_flatMap, flatMap_words_groups]
    rfl
  have hread : List.Forall₂ (fun token w => token.2 = (Text.hex4 (UInt16.toNat w)).toList)
      (tokens (render program).toList) program := by
    rw [← List.forall₂_eq_eq_eq, List.forall₂_map_left_iff, List.forall₂_map_right_iff] at htokens
    exact htokens
  rw [parse, mapM_eq_ok]
  refine hread.imp ?_
  rintro ⟨n, token⟩ w rfl
  exact readWord_hex4 n w

end Dcpu16.Image.Hex
