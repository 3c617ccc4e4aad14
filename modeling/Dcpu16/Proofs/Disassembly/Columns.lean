import Dcpu16.Disassembly.Listing
import Dcpu16.Proofs.Disassembly.Fetching
import Dcpu16.Proofs.Disassembly.Reading
import Dcpu16.Proofs.Image.Hex

/-! The columns of a listing.  The rows of a listing are read back as the lines that they show, and
together the lines show the words of the program in order.  Positions count on without bound, but
words are fetched at addresses of sixteen bits: from position 65536 on, a listing shows the first
words of the program again and not those that stand there. -/

namespace Dcpu16.Listing

/-! ### Rows -/

/-- A line shows the instruction that its raw words encode, and no word is left over. -/
def Line.IsInstruction (l : Line) : Prop :=
  ∃ w extension i, l.raw = w :: extension ∧ Instruction.decode w = .ok i ∧
    i.size = 1 + extension.length ∧ l.text = i.text extension

/-- Reads a row: the address before the colon, the text before the semicolon without the blanks
around it, and the words behind the semicolon. -/
def Line.read? (row : List Char) : Option Line := do
  let address ← Text.readNat? 16 (row.takeWhile (· != ':'))
  let columns := (row.dropWhile (· != ':')).drop 2
  let text := columns.takeWhile (· != ';')
  let raw ← (Text.words ((columns.dropWhile (· != ';')).drop 1)).mapM Image.Hex.word?
  return { address, indented := text.head? == some ' ', text := .ofList (Text.trim text), raw }

/-- Reads the rows of a listing under its title of three lines. -/
def read? (listing : List Char) : Option (List Line) :=
  ((Text.lines listing).drop 3).mapM Line.read?

namespace Line

variable (l : Line)

/-- The number of blanks before the text of a line. -/
def margin : Nat := if l.indented then 4 else 0

/-- The text column of a line, up to the semicolon. -/
def textColumn : List Char :=
  List.replicate l.margin ' ' ++ l.text.toList ++
    List.replicate (30 - (l.margin + l.text.length) + 1) ' '

/-- The raw column of a line. -/
def rawColumn : List Char := [' '].intercalate (l.raw.map fun w => (Text.hex4 w.toNat).toList)

/-- A row without its line end. -/
def row : List Char :=
  (Text.hex4 l.address).toList ++ ':' :: ' ' :: (l.textColumn ++ ';' :: ' ' :: l.rawColumn)

theorem toList_render : l.render.toList = l.row ++ ['\n'] := by
  cases hindented : l.indented with
  | true =>
    simp [render, row, textColumn, rawColumn, margin, hindented, Text.padRight, toString,
      List.replicate_succ', Function.comp_def]
    rfl
  | false =>
    simp [render, row, textColumn, rawColumn, margin, hindented, Text.padRight, toString,
      List.replicate_succ', Function.comp_def]

variable {l}

theorem IsInstruction.length_raw_le (h : l.IsInstruction) : l.raw.length ≤ 3 := by
  obtain ⟨w, extension, i, hraw, -, hsize, -⟩ := h
  have hle := i.size_le
  rw [hraw, List.length_cons]
  omega

theorem textColumn_subset (h : l.IsInstruction) : l.textColumn ⊆ ' ' :: ',' :: textChars := by
  obtain ⟨w, extension, i, -, -, -, htext⟩ := h
  have hblank (n : Nat) : List.replicate n ' ' ⊆ ' ' :: ',' :: textChars :=
    List.Subset.trans (List.replicate_subset_singleton n ' ') (by simp)
  rw [textColumn, htext, List.append_subset, List.append_subset]
  exact ⟨⟨hblank _, i.text_subset extension⟩, hblank _⟩

theorem trim_textColumn (h : l.IsInstruction) : Text.trim l.textColumn = l.text.toList := by
  obtain ⟨w, extension, i, -, -, -, htext⟩ := h
  have hgap (n : Nat) : Text.IsGap (List.replicate n ' ') := Text.isGap_replicate rfl n
  rw [textColumn, Text.trim_append_gap (hgap _), Text.trim_gap_append (hgap _), htext,
    i.trim_text]

theorem head?_textColumn (h : l.IsInstruction) :
    (l.textColumn.head? == some ' ') = l.indented := by
  obtain ⟨w, extension, i, -, -, -, htext⟩ := h
  cases hindented : l.indented with
  | true => simp [textColumn, margin, hindented, List.replicate_succ]
  | false =>
    have hmnemonic : (i.opcode.mnemonic.toList.head? == some ' ') = false ∧
        i.opcode.mnemonic.toList ≠ [] := by
      cases i.opcode <;> decide
    have hcolumn : l.textColumn.head? = i.opcode.mnemonic.toList.head? := by
      rw [textColumn, margin, hindented, htext, i.toList_text, List.append_assoc, List.append_assoc]
      exact List.head?_append_of_ne_nil _ hmnemonic.2
    rw [hcolumn]
    exact hmnemonic.1

theorem row_subset (h : l.IsInstruction) : l.row ⊆ ';' :: ':' :: ' ' :: ',' :: textChars := by
  have hwide : Text.hexDigits ⊆ ';' :: ':' :: ' ' :: ',' :: textChars := by decide
  have haddress := List.Subset.trans (Text.hex4_subset l.address) hwide
  have htext : l.textColumn ⊆ ';' :: ':' :: ' ' :: ',' :: textChars :=
    fun c hc => .tail _ (.tail _ (textColumn_subset h hc))
  have hraw : l.rawColumn ⊆ ';' :: ':' :: ' ' :: ',' :: textChars :=
    List.Subset.trans (Image.Hex.intercalate_hex4_subset l.raw) (by decide)
  simp only [row, List.append_subset, List.cons_subset]
  exact ⟨haddress, by decide, by decide, htext, by decide, by decide, hraw⟩

theorem isLine_row (h : l.IsInstruction) : Text.IsLine l.row := by
  have hall := row_subset h
  exact ⟨fun hc => absurd (hall hc) (by decide), fun hc => absurd (hall hc) (by decide)⟩

/-- A row is read back as the line that it shows. -/
theorem read?_row (h : l.IsInstruction) : read? l.row = some l := by
  have hcolon : ':' ∉ (Text.hex4 l.address).toList :=
    fun hc => absurd (Text.hex4_subset _ hc) (by decide)
  have hsemicolon : ';' ∉ l.textColumn := fun hc => absurd (textColumn_subset h hc) (by decide)
  have hraw : (Text.words (' ' :: l.rawColumn)).mapM Image.Hex.word? = some l.raw := by
    have hwords := Image.Hex.words_hex4 l.raw 0
    rw [List.replicate_zero, List.append_nil] at hwords
    rw [Text.words_cons rfl, rawColumn, hwords, List.mapM_map]
    exact (mapM_eq_some_map fun w _ => Image.Hex.word?_hex4 w).trans (by rw [List.map_id'])
  rw [read?, row, Text.takeWhile_append_cons hcolon, Text.dropWhile_append_cons hcolon,
    Text.readNat?_hex4]
  simp only [List.drop_succ_cons, List.drop_zero, Text.takeWhile_append_cons hsemicolon,
    Text.dropWhile_append_cons hsemicolon, hraw, head?_textColumn h, trim_textColumn h,
    String.ofList_toList]
  rfl

end Line

/-! ### Lines in order -/

section Lines

variable {program : Array UInt16} {position n : Nat} {ls : List Line}

/-- Lines that show `n` words of a program from a position on, each at the position where the one
before it ends, up to the end of the program or past it. -/
inductive Covers (program : Array UInt16) : Nat → Nat → List Line → Prop
  | nil {position : Nat} : program.size ≤ position → Covers program position 0 []
  | cons {position n : Nat} {l : Line} {ls : List Line} (indented : Bool) :
      position < program.size → l = lineAt program position indented →
      Covers program (position + l.raw.length) n ls →
      Covers program position (l.raw.length + n) (l :: ls)

theorem length_raw_lineAt (program : Array UInt16) (position : Nat) (indented : Bool) :
    (lineAt program position indented).raw.length =
      (textAt (fetch program) (.ofNat position)).2 :=
  length_wordsAt _ _ _

theorem raw_lineAt (program : Array UInt16) (position : Nat) (indented : Bool) :
    (lineAt program position indented).raw = wordsAt (fetch program) (.ofNat position)
      (lineAt program position indented).raw.length := by
  rw [length_raw_lineAt]
  rfl

theorem isInstruction_lineAt (program : Array UInt16) (position : Nat) (indented : Bool) :
    (lineAt program position indented).IsInstruction := by
  obtain ⟨i, hi⟩ := Instruction.exists_decode (fetch program (.ofNat position))
  have hpos := i.size_pos
  refine ⟨fetch program (.ofNat position),
    wordsAt (fetch program) (.ofNat position + 1) (i.size - 1), i, ?_, hi, ?_, ?_⟩
  · show wordsAt (fetch program) (.ofNat position) (textAt _ _).2 = _
    rw [textAt_eq hi, ← wordsAt_succ, Nat.sub_add_cancel hpos]
  · rw [length_wordsAt]
    omega
  · show (textAt _ _).1 = _
    rw [textAt_eq hi]

/-- The loop adds lines that cover the rest of the program. -/
theorem exists_covers (program : Array UInt16) (position : Nat) (indented : Bool)
    (done : List Line) :
    ∃ n ls, linesFrom program position indented done = done.reverse ++ ls ∧
      Covers program position n ls := by
  induction position, indented, done using linesFrom.induct program with
  | case1 position indented done h address ih =>
    obtain ⟨n, ls, hlines, hcovers⟩ := ih
    refine ⟨(lineAt program position indented).raw.length + n,
      lineAt program position indented :: ls, ?_, .cons indented h rfl ?_⟩
    · rw [linesFrom, if_pos h, hlines, List.reverse_cons, List.append_assoc]
      rfl
    · rwa [length_raw_lineAt]
  | case2 position indented done h =>
    refine ⟨0, [], ?_, .nil (Nat.le_of_not_lt h)⟩
    rw [linesFrom, if_neg h, List.append_nil]

namespace Covers

theorem flatMap_raw (h : Covers program position n ls) :
    ls.flatMap Line.raw = wordsAt (fetch program) (.ofNat position) n := by
  induction h with
  | nil => rfl
  | cons indented _ hl _ ih =>
    rw [List.flatMap_cons, ih, wordsAt_add, UInt16.ofNat_add]
    congr 1
    rw [hl]
    exact raw_lineAt program _ indented

theorem size_le (h : Covers program position n ls) : program.size ≤ position + n := by
  induction h with
  | nil hend => exact hend
  | cons _ _ _ _ ih => rwa [← Nat.add_assoc]

theorem le_size (h : Covers program position n ls) (hposition : position ≤ program.size + 2) :
    position + n ≤ program.size + 2 := by
  induction h with
  | nil => exact hposition
  | cons indented hinside hl _ ih =>
    have hsize := (hl ▸ isInstruction_lineAt program _ indented).length_raw_le
    rw [← Nat.add_assoc]
    apply ih
    -- The line starts before the end, so at most two of its three words lie past it.
    omega

theorem mem (h : Covers program position n ls) :
    ∀ l ∈ ls, l.IsInstruction ∧ l.address < program.size := by
  induction h with
  | nil => exact nofun
  | cons indented hinside hl _ ih =>
    rintro l (_ | ⟨_, hmem⟩)
    · rw [hl]
      exact ⟨isInstruction_lineAt program _ indented, hinside⟩
    · exact ih l hmem

theorem address (h : Covers program position n ls) {k : Nat} {l : Line} (hk : ls[k]? = some l) :
    l.address = position + ((ls.take k).flatMap Line.raw).length := by
  induction h generalizing k with
  | nil => cases hk
  | cons indented _ hl _ ih =>
    cases k with
    | zero =>
      obtain rfl := Option.some.inj hk
      rw [hl]
      rfl
    | succ k =>
      rw [ih hk, List.take_succ_cons, List.flatMap_cons, List.length_append, Nat.add_assoc]

end Covers

end Lines

/-! ### Programs -/

theorem exists_covers_lines (program : List UInt16) :
    ∃ n, Covers program.toArray 0 n (lines program) := by
  obtain ⟨n, ls, hlines, hcovers⟩ := exists_covers program.toArray 0 false []
  rw [List.reverse_nil, List.nil_append] at hlines
  exact ⟨n, by rwa [lines, hlines]⟩

theorem toList_render (program : List UInt16) :
    (render program).toList =
      "; DCPU-16 Disassembly".toList ++ '\n' :: ("; -------------------".toList ++ '\n' ::
        ([] ++ '\n' :: (((lines program).map Line.row).flatMap (· ++ ['\n']) ++ []))) := by
  have htitle : "; DCPU-16 Disassembly\n; -------------------\n\n".toList =
      "; DCPU-16 Disassembly".toList ++ '\n' :: ("; -------------------".toList ++
        ['\n', '\n']) := by decide +kernel
  have hrows : (String.join ((lines program).map Line.render)).toList =
      ((lines program).map Line.row).flatMap (· ++ ['\n']) := by
    simp [Line.toList_render, List.flatMap_map]
  -- Rewriting with `String.toList_append` would try to take the literals apart.
  have hparts : (render program).toList =
      "; DCPU-16 Disassembly\n; -------------------\n\n".toList ++
        (String.join ((lines program).map Line.render)).toList := String.toList_append
  rw [hparts, htitle, hrows, List.append_nil, List.append_assoc, List.cons_append,
    List.append_assoc]
  rfl

theorem lines_render (program : List UInt16) :
    Text.lines (render program).toList =
      "; DCPU-16 Disassembly".toList :: "; -------------------".toList :: [] ::
        (lines program).map Line.row := by
  obtain ⟨n, hcovers⟩ := exists_covers_lines program
  have hrows : ∀ row ∈ (lines program).map Line.row, Text.IsLine row := by
    intro row hrow
    obtain ⟨l, hl, rfl⟩ := List.mem_map.mp hrow
    exact Line.isLine_row (hcovers.mem l hl).1
  rw [toList_render, Text.lines_append (by decide), Text.lines_append (by decide),
    Text.lines_append (by decide), Text.lines_flatMap_append hrows, Text.lines_nil,
    List.append_nil]

theorem read?_render (program : List UInt16) :
    read? (render program).toList = some (lines program) := by
  obtain ⟨n, hcovers⟩ := exists_covers_lines program
  rw [read?, lines_render, List.drop_succ_cons, List.drop_succ_cons, List.drop_succ_cons,
    List.drop_zero, List.mapM_map]
  exact (mapM_eq_some_map fun l hl => Line.read?_row (hcovers.mem l hl).1).trans
    (by rw [List.map_id'])

/-- The word that a listing shows at a position. -/
def shown (program : List UInt16) (k : Nat) : UInt16 := program[k % 65536]?.getD 0

theorem wordsAt_fetch (program : List UInt16) (n : Nat) :
    wordsAt (fetch program.toArray) 0 n = (List.range n).map (shown program) := by
  simp [wordsAt, fetch, shown]

theorem flatMap_raw_lines (program : List UInt16) :
    ∃ extra ≤ 2, (lines program).flatMap Line.raw =
      (List.range (program.length + extra)).map (shown program) := by
  obtain ⟨n, hcovers⟩ := exists_covers_lines program
  have hsize : program.toArray.size = program.length := List.size_toArray
  have hlow := hcovers.size_le
  have hhigh := hcovers.le_size (Nat.zero_le _)
  refine ⟨n - program.length, by omega, ?_⟩
  rw [Nat.add_sub_cancel' (by omega), ← wordsAt_fetch]
  exact hcovers.flatMap_raw

theorem getElem?_shown {program : List UInt16} {k : Nat} (h : k < program.length) :
    program[k % 65536]? = some (shown program k) := by
  have hle := Nat.mod_le k 65536
  have hinside : k % 65536 < program.length := by omega
  rw [shown, List.getElem?_eq_getElem hinside]
  rfl

/-- A listing loses no word exactly if the words repeat from position 65536 on. -/
theorem prefix_raw_lines (program : List UInt16) :
    program <+: (lines program).flatMap Line.raw ↔
      ∀ k < program.length, program[k]? = program[k % 65536]? := by
  obtain ⟨extra, -, hraw⟩ := flatMap_raw_lines program
  have hcolumn {k : Nat} (hk : k < program.length) :
      ((lines program).flatMap Line.raw)[k]? = program[k % 65536]? := by
    rw [hraw, List.getElem?_map, List.getElem?_range (by omega), getElem?_shown hk]
    rfl
  rw [List.prefix_iff_getElem?]
  constructor
  · intro hprefix k hk
    rw [← hcolumn hk, hprefix k hk, List.getElem?_eq_getElem hk]
  · intro hrepeat k hk
    rw [hcolumn hk, ← hrepeat k hk, List.getElem?_eq_getElem hk]

/-- The rows of a listing are read back as lines that each show one instruction with all its words,
at the position where the words of the lines before it end.  Together they show every position of
the program, and at most two more that complete the last instruction.  What stands at a position is
the word of the program at the address of that position, and zero past the end of the program. -/
theorem columns_render (program : List UInt16) :
    ∃ ls extra, read? (render program).toList = some ls ∧ extra ≤ 2 ∧
      ls.flatMap Line.raw = (List.range (program.length + extra)).map (shown program) ∧
      (program.length ≤ 65536 → program <+: ls.flatMap Line.raw) ∧
      (program <+: ls.flatMap Line.raw ↔
        ∀ k < program.length, program[k]? = program[k % 65536]?) ∧
      (∀ k l, ls[k]? = some l → l.address = ((ls.take k).flatMap Line.raw).length) ∧
      ∀ l ∈ ls, l.IsInstruction ∧ l.address < program.length := by
  obtain ⟨n, hcovers⟩ := exists_covers_lines program
  obtain ⟨extra, hextra, hraw⟩ := flatMap_raw_lines program
  have haddress : ∀ k l, (lines program)[k]? = some l →
      l.address = (((lines program).take k).flatMap Line.raw).length := by
    intro k l hk
    rw [hcovers.address hk, Nat.zero_add]
  have hshort : program.length ≤ 65536 → program <+: (lines program).flatMap Line.raw := by
    intro hlength
    apply (prefix_raw_lines program).mpr
    intro k hk
    rw [Nat.mod_eq_of_lt (by omega)]
  exact ⟨lines program, extra, read?_render program, hextra, hraw, hshort,
    prefix_raw_lines program, haddress, hcovers.mem⟩

/-- The word at position 65536 is lost: its row shows the first word of the program. -/
theorem not_prefix_raw_overlong :
    ¬ ∃ ls, read? (render (List.replicate 65536 0 ++ [1])).toList = some ls ∧
      List.replicate 65536 0 ++ [1] <+: ls.flatMap Line.raw := by
  rintro ⟨ls, hread, hprefix⟩
  rw [read?_render] at hread
  obtain rfl := Option.some.inj hread
  have hlength : (List.replicate 65536 (0 : UInt16) ++ [1]).length = 65537 := by
    rw [List.length_append, List.length_replicate, List.length_singleton]
  -- Position 65536 has the address 0.
  have hlast := (prefix_raw_lines _).mp hprefix 65536 (by omega)
  rw [Nat.mod_self, List.getElem?_append_right (by rw [List.length_replicate]),
    List.getElem?_append_left (by rw [List.length_replicate]; omega), List.length_replicate,
    List.getElem?_replicate_of_lt (by omega)] at hlast
  exact absurd (Option.some.inj hlast) (by decide)

end Dcpu16.Listing
