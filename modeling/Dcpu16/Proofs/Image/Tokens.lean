import Dcpu16.Proofs.Image.Hex
import Dcpu16.Proofs.Text.Digits
import Dcpu16.Proofs.Text.Quotation

/-! What text images are.  A text has one division into tokens, white space and comments, and it is
an image exactly when each of its tokens is a word; else the first token that is none is what is
wrong with it. -/

namespace Dcpu16.Image.Hex

/-! ### Words -/

/-- The token stands for the word: a base mark and a plus sign, each of which may be left out, and
digits. -/
def IsWord (token : List Char) (w : UInt16) : Prop :=
  ∃ mark sign digits, mark ∈ [[], ['0', 'x'], ['0', 'X']] ∧ sign ∈ [[], ['+']] ∧
    token = mark ++ (sign ++ digits) ∧ Text.Denotes 16 digits w.toNat

theorem exists_mark (token : List Char) :
    ∃ mark ∈ [[], ['0', 'x'], ['0', 'X']], token = mark ++ dropMark token := by
  unfold dropMark
  split
  · exact ⟨['0', 'x'], by simp, rfl⟩
  · exact ⟨['0', 'X'], by simp, rfl⟩
  · exact ⟨[], by simp, rfl⟩

theorem word?_eq_some_iff {token : List Char} {w : UInt16} : word? token = some w ↔
    Text.readUnsigned? 16 (dropMark token) = some w.toNat := by
  unfold word?
  split
  · next n hn =>
    rw [hn, Option.some.injEq]
    constructor
    · intro h
      split at h
      · next hle =>
        obtain rfl := Option.some.inj h
        rw [UInt16.toNat_ofNat_of_lt' (Nat.lt_succ_of_le hle)]
      · cases h
    · rintro rfl
      rw [if_pos (Nat.le_of_lt_succ w.toNat_lt), UInt16.ofNat_toNat]
  · next hnone => simp [hnone]

theorem word?_eq_some {token : List Char} {w : UInt16} :
    word? token = some w ↔ IsWord token w := by
  rw [word?_eq_some_iff, Text.readUnsigned?_iff (by decide)]
  constructor
  · rintro ⟨sign, digits, hsign, hrest, hdigits⟩
    obtain ⟨mark, hmark, htoken⟩ := exists_mark token
    exact ⟨mark, sign, digits, hmark, hsign, hrest ▸ htoken, hdigits⟩
  · rintro ⟨mark, sign, digits, hmark, hsign, rfl, hdigits⟩
    refine ⟨sign, digits, hsign, ?_, hdigits⟩
    simp only [List.mem_cons, List.not_mem_nil, or_false] at hmark hsign
    -- A mark is dropped once, and without one no `x` stands in the token.
    have habsent {c : Char} (hplus : c ≠ '+')
        (hc : ∀ d < 16, c ≠ d.digitChar ∧ c ≠ d.digitChar.toUpper) : c ∉ sign ++ digits := by
      rw [List.mem_append]
      rintro (h | h)
      · rcases hsign with rfl | rfl
        · cases h
        · exact hplus (List.mem_singleton.mp h)
      · exact hdigits.not_mem (by decide) hc h
    rcases hmark with rfl | rfl | rfl
    · exact dropMark_eq_self (habsent (by decide) (by decide)) (habsent (by decide) (by decide))
    · rfl
    · rfl

theorem readWord_eq_ok {line : Nat} {token : List Char} {w : UInt16} :
    readWord line token = .ok w ↔ IsWord token w := by
  rw [← word?_eq_some, readWord]
  cases word? token <;> simp

theorem readWord_eq_error {line : Nat} {token : List Char} {e : Error} :
    readWord line token = .error e ↔
      (∀ w, ¬IsWord token w) ∧ e = .invalidWord line (String.ofList token) := by
  simp only [← word?_eq_some, readWord]
  cases word? token with
  | none => simp [eq_comm]
  | some w => simp

/-! ### Lines -/

theorem words_append_blank {c : Char} (hc : Text.isBlank c = true) (cs : List Char) :
    Text.words (cs ++ [c]) = Text.words cs := by
  rw [Text.words, List.splitOnP_append_cons _ _ hc, List.splitOnP_nil, List.filter_append]
  exact List.append_nil _

/-- A carriage return at the end of a line is white space or stands in a comment. -/
theorem words_code_dropReturn (l : List Char) :
    Text.words (code (Text.dropReturn l)) = Text.words (code l) := by
  unfold Text.dropReturn
  split
  · next hlast =>
    obtain ⟨init, rfl⟩ := List.getLast?_eq_some_iff.mp hlast
    rw [List.dropLast_concat, code, code, List.takeWhile_append]
    split
    · next hall =>
      rw [(List.takeWhile_prefix _).eq_of_length hall]
      exact (words_append_blank rfl init).symm
    · rfl
  · rfl

/-- The tokens of a line with this number. -/
def lineTokens (line : Nat) (l : List Char) : List (Nat × List Char) :=
  (Text.words (code l)).map fun token => (line, token)

/-- The tokens of a text whose first line has this number. -/
def tokensFrom (line : Nat) (text : List Char) : List (Nat × List Char) :=
  ((text.splitOn '\n').zipIdx line).flatMap fun (l, n) => lineTokens n l

theorem tokens_eq (text : List Char) : tokens text = tokensFrom 1 text := by
  obtain ⟨init, last, hpieces⟩ : ∃ init last, text.splitOn '\n' = init ++ [last] :=
    ⟨_, _, (List.dropLast_append_getLast (List.splitOn_ne_nil '\n' text)).symm⟩
  have hlines : Text.lines text =
      init.map Text.dropReturn ++ if last.isEmpty then [] else [last] := by
    simp [Text.lines, hpieces]
  have hline (line : Nat) (l : List Char) :
      lineTokens line (Text.dropReturn l) = lineTokens line l := by
    rw [lineTokens, words_code_dropReturn, lineTokens]
  have hended : ((init.map Text.dropReturn).zipIdx 1).flatMap (fun (l, n) => lineTokens n l) =
      (init.zipIdx 1).flatMap fun (l, n) => lineTokens n l := by
    rw [List.zipIdx_map, List.flatMap_map]
    simp only [Prod.map, hline, id]
  have hlast : ((if last.isEmpty then [] else [last]).zipIdx (1 + init.length)).flatMap
      (fun (l, n) => lineTokens n l) = lineTokens (1 + init.length) last := by
    cases last with
    | nil => rfl
    | cons c cs => simp
  show ((Text.lines text).zipIdx 1).flatMap (fun (l, n) => lineTokens n l) = _
  rw [tokensFrom, hlines, hpieces, List.zipIdx_append, List.zipIdx_append, List.flatMap_append,
    List.flatMap_append, hended, List.length_map, hlast]
  simp

/-! ### Divisions -/

/-- The text, whose first line has this number, is divided into the tokens, each with the number of
its line, and white space and comments between them. -/
inductive Divides : Nat → List Char → List (Nat × List Char) → Prop
  | nil {line : Nat} : Divides line [] []
  | feed {line : Nat} {text : List Char} {ts : List (Nat × List Char)} :
      Divides (line + 1) text ts → Divides line ('\n' :: text) ts
  | blank {line : Nat} {c : Char} {text : List Char} {ts : List (Nat × List Char)} :
      Text.isBlank c = true → c ≠ '\n' → Divides line text ts → Divides line (c :: text) ts
  /-- A comment goes on to the end of its line. -/
  | comment {line : Nat} {comment text : List Char} {ts : List (Nat × List Char)} :
      '\n' ∉ comment → (∀ c ∈ text.head?, c = '\n') → Divides line text ts →
      Divides line (';' :: comment ++ text) ts
  /-- A token goes on to white space, a comment or the end. -/
  | token {line : Nat} {token text : List Char} {ts : List (Nat × List Char)} :
      token ≠ [] → Text.IsSolid token → ';' ∉ token →
      (∀ c ∈ text.head?, Text.isBlank c = true ∨ c = ';') → Divides line text ts →
      Divides line (token ++ text) ((line, token) :: ts)

/-- The rest of the line that a text starts with. -/
def firstLine (text : List Char) : List Char := text.takeWhile (· != '\n')

theorem splitOn_eq_cons (text : List Char) :
    ∃ rest, text.splitOn '\n' = firstLine text :: rest := by
  induction text with
  | nil => exact ⟨[], rfl⟩
  | cons c text ih =>
    obtain ⟨rest, hrest⟩ := ih
    by_cases hc : c = '\n'
    · subst hc
      exact ⟨text.splitOn '\n', by
        rw [List.splitOn, List.splitOnP_cons_eq_if_modifyHead]
        rfl⟩
    · refine ⟨rest, ?_⟩
      rw [List.splitOn] at hrest ⊢
      rw [List.splitOnP_cons_eq_if_modifyHead, if_neg (by simpa using hc), hrest]
      simp [firstLine, hc]

theorem tokensFrom_feed (line : Nat) (text : List Char) :
    tokensFrom line ('\n' :: text) = tokensFrom (line + 1) text := by
  have hpieces : ('\n' :: text).splitOn '\n' = [] :: text.splitOn '\n' := by
    rw [List.splitOn, List.splitOnP_cons_eq_if_modifyHead]
    rfl
  rw [tokensFrom, hpieces]
  rfl

/-- What stands before a text on its first line adds the tokens that it adds to this line. -/
theorem tokensFrom_append {front text : List Char} (line : Nat) (added : List (List Char))
    (hfront : '\n' ∉ front)
    (hadded : Text.words (code (front ++ firstLine text)) =
      added ++ Text.words (code (firstLine text))) :
    tokensFrom line (front ++ text) =
      added.map (fun token => (line, token)) ++ tokensFrom line text := by
  obtain ⟨rest, hrest⟩ := splitOn_eq_cons text
  have hpieces : (front ++ text).splitOn '\n' = (front ++ firstLine text) :: rest := by
    rw [List.splitOn] at hrest ⊢
    rw [Text.splitOnP_append_left (fun c hc => ?_), hrest]
    · rfl
    · exact beq_eq_false_iff_ne.mpr (ne_of_mem_of_not_mem hc hfront)
  have hline : lineTokens line (front ++ firstLine text) =
      added.map (fun token => (line, token)) ++ lineTokens line (firstLine text) := by
    rw [lineTokens, hadded, List.map_append, lineTokens]
  simp only [tokensFrom, hpieces, hrest, List.zipIdx_cons, List.flatMap_cons, hline,
    List.append_assoc]

theorem words_append_of_head {w rest : List Char} (h : Text.IsSolid w) (hne : w ≠ [])
    (hrest : ∀ c ∈ rest.head?, Text.isBlank c = true) :
    Text.words (w ++ rest) = w :: Text.words rest := by
  cases rest with
  | nil => rw [List.append_nil, Text.words_of_isSolid h hne]; rfl
  | cons c rest => rw [Text.words_append h hne (hrest c rfl), Text.words_cons (hrest c rfl)]

theorem code_append {front : List Char} (h : ';' ∉ front) (l : List Char) :
    code (front ++ l) = front ++ code l :=
  List.takeWhile_append_of_pos fun c hc => by simpa using ne_of_mem_of_not_mem hc h

theorem Divides.tokensFrom_eq {line : Nat} {text : List Char} {ts : List (Nat × List Char)}
    (h : Divides line text ts) : tokensFrom line text = ts := by
  induction h with
  | nil => rfl
  | feed _ ih => rw [tokensFrom_feed, ih]
  | @blank line c text ts hc hfeed _ ih =>
    have hsemicolon : ';' ∉ [c] := by
      intro h
      obtain rfl := List.mem_singleton.mp h
      cases hc
    have hadded :
        Text.words (code ([c] ++ firstLine text)) = Text.words (code (firstLine text)) := by
      rw [code_append hsemicolon, List.singleton_append, Text.words_cons hc]
    rw [← ih]
    exact tokensFrom_append line [] (by simpa using hfeed.symm) hadded
  | @comment line comment text ts hcomment htext _ ih =>
    have hfirst : firstLine text = [] := by
      cases text with
      | nil => rfl
      | cons c text => rw [htext c rfl]; rfl
    rw [← ih]
    refine tokensFrom_append line [] (by simpa using hcomment) ?_
    rw [hfirst]
    rfl
  | @token line token text ts hne hsolid hsemicolon htext _ ih =>
    have hhead : ∀ c ∈ (code (firstLine text)).head?, Text.isBlank c = true := by
      cases text with
      | nil => exact nofun
      | cons c text =>
        by_cases hstop : c = '\n' ∨ c = ';'
        · rcases hstop with rfl | rfl <;> exact nofun
        · rw [not_or] at hstop
          have hc := (htext c rfl).resolve_right hstop.2
          simp [firstLine, code, hstop.1, hstop.2, hc]
    have hfeed : '\n' ∉ token := fun h => by cases hsolid _ h
    rw [← ih]
    refine tokensFrom_append line [token] hfeed ?_
    rw [code_append hsemicolon, words_append_of_head hsolid hne hhead]
    rfl

theorem exists_divides (line : Nat) (text : List Char) : ∃ ts, Divides line text ts := by
  induction hn : text.length using Nat.strong_induction_on generalizing line text with
  | _ n ih =>
    subst hn
    cases text with
    | nil => exact ⟨[], .nil⟩
    | cons c text =>
      have hrest (line : Nat) {rest : List Char} (h : rest.length ≤ text.length) :
          ∃ ts, Divides line rest ts := ih rest.length (Nat.lt_succ_of_le h) line rest rfl
      by_cases hfeed : c = '\n'
      · obtain ⟨ts, hts⟩ := hrest (line + 1) (Nat.le_refl _)
        exact ⟨ts, hfeed ▸ .feed hts⟩
      by_cases hc : Text.isBlank c = true
      · obtain ⟨ts, hts⟩ := hrest line (Nat.le_refl _)
        exact ⟨ts, .blank hc hfeed hts⟩
      by_cases hsemicolon : c = ';'
      · subst hsemicolon
        obtain ⟨ts, hts⟩ := hrest line (List.dropWhile_sublist (· != '\n')).length_le
        have hcomment : '\n' ∉ text.takeWhile (· != '\n') := fun h => by
          simpa using List.mem_takeWhile_imp h
        have hhead := List.head?_dropWhile_not (· != '\n') text
        refine ⟨ts, ?_⟩
        rw [← List.takeWhile_append_dropWhile (p := (· != '\n')) (l := text), ← List.cons_append]
        refine .comment hcomment (fun d hd => ?_) hts
        rw [Option.mem_def.mp hd] at hhead
        simpa using hhead
      · let goesOn (d : Char) : Bool := !Text.isBlank d && d != ';'
        have hfirst : goesOn c = true := by simp [goesOn, hc, hsemicolon]
        have hmem : ∀ d ∈ (c :: text).takeWhile goesOn, Text.isBlank d = false ∧ d ≠ ';' := by
          intro d hd
          simpa [goesOn] using List.mem_takeWhile_imp hd
        have hlength : ((c :: text).dropWhile goesOn).length ≤ text.length := by
          rw [List.dropWhile_cons_of_pos hfirst]
          exact (List.dropWhile_sublist goesOn).length_le
        have hhead := List.head?_dropWhile_not goesOn (c :: text)
        obtain ⟨ts, hts⟩ := hrest line hlength
        refine ⟨(line, (c :: text).takeWhile goesOn) :: ts, ?_⟩
        conv => arg 2; rw [← List.takeWhile_append_dropWhile (p := goesOn) (l := c :: text)]
        refine .token ?_ (fun d hd => (hmem d hd).1) (fun h => (hmem _ h).2 rfl)
          (fun d hd => ?_) hts
        · rw [List.takeWhile_cons_of_pos hfirst]
          exact List.cons_ne_nil _ _
        · rw [Option.mem_def.mp hd] at hhead
          simpa [goesOn, or_iff_not_imp_left] using hhead

theorem divides_iff {text : List Char} {ts : List (Nat × List Char)} :
    Divides 1 text ts ↔ ts = tokens text := by
  rw [tokens_eq]
  constructor
  · intro h
    exact h.tokensFrom_eq.symm
  · rintro rfl
    obtain ⟨ts, hts⟩ := exists_divides 1 text
    rwa [hts.tokensFrom_eq]

/-! ### Images -/

theorem map_snd_tokens_append (text text' : List Char) :
    (tokens (text ++ '\n' :: text')).map Prod.snd =
      (tokens text).map Prod.snd ++ (tokens text').map Prod.snd := by
  have hsnd (text : List Char) : (tokens text).map Prod.snd =
      (text.splitOn '\n').flatMap fun l => Text.words (code l) := by
    calc
      (tokens text).map Prod.snd
      _ = ((text.splitOn '\n').zipIdx 1).flatMap fun line => Text.words (code line.1) := by
        rw [tokens_eq]
        simp [tokensFrom, lineTokens, List.map_flatMap, Function.comp_def]
      _ = (((text.splitOn '\n').zipIdx 1).map Prod.fst).flatMap fun l => Text.words (code l) := by
        rw [List.flatMap_map]
      _ = _ := by rw [List.zipIdx_map_fst]
  rw [hsnd, hsnd, hsnd, List.splitOn, List.splitOnP_append_cons _ _ (by simp), List.flatMap_append]
  rfl

theorem parse_eq_ok {text : List Char} {program : List UInt16} : parse text = .ok program ↔
    List.Forall₂ IsWord ((tokens text).map Prod.snd) program := by
  simp only [parse, mapM_eq_ok, readWord_eq_ok, List.forall₂_map_left_iff]

/-- Each text has one division into tokens.  It is an image exactly when every token is a word, and
then the image of these words in their order; else what is wrong is the first token that is no word,
as it is written and with the number of its line.  Two images with a line end between them are the
image of both. -/
theorem parse_by_tokens (text : List Char) : ∃ ts, (∀ ts', Divides 1 text ts' ↔ ts' = ts) ∧
    (∀ program, parse text = .ok program ↔
      List.Forall₂ (fun t w => IsWord t.2 w) ts program) ∧
    (∀ e, parse text = .error e ↔ ∃ before line token after,
      ts = before ++ (line, token) :: after ∧ (∀ t ∈ before, ∃ w, IsWord t.2 w) ∧
        (∀ w, ¬IsWord token w) ∧ e = .invalidWord line (String.ofList token)) ∧
    ∀ text' program program', parse text = .ok program → parse text' = .ok program' →
      parse (text ++ '\n' :: text') = .ok (program ++ program') := by
  refine ⟨tokens text, fun _ => divides_iff, fun program => ?_, fun e => ?_, ?_⟩
  · rw [parse_eq_ok, List.forall₂_map_left_iff]
  · simp only [parse, mapM_eq_error, readWord_eq_ok, readWord_eq_error, Prod.exists]
  · intro text' program program' h h'
    rw [parse_eq_ok, map_snd_tokens_append]
    exact List.rel_append (parse_eq_ok.mp h) (parse_eq_ok.mp h')

/-- A base mark is dropped once, a plus sign may stand behind it, and a minus sign may not. -/
example : parse "0X+00ff ; 12\r\n 7 -1".toList = .error (.invalidWord 2 "-1") := by decide

end Dcpu16.Image.Hex
