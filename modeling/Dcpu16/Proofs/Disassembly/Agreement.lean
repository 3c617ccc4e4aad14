import Dcpu16.Proofs.Disassembly.Columns
import Dcpu16.Proofs.Machine.Loading

/-! A listing and a text image show the same instructions.  A listing fetches words at addresses and
finds zeros behind the program; an image cuts the program into instructions and stops at its end.
Both start their rows at the same addresses and write the same text, which is also what stands at
these addresses of a memory that holds the program. -/

namespace Dcpu16

theorem Instruction.text_append_replicate (i : Instruction) (extension : List UInt16) (n : Nat) :
    i.text (extension ++ List.replicate n 0) = i.text extension := by
  have hword (k : Nat) : ((extension ++ List.replicate n 0).drop k).headD 0 =
      (extension.drop k).headD 0 := by
    simp only [List.headD_eq_head?_getD, List.head?_drop]
    rcases Nat.lt_or_ge k extension.length with hk | hk
    · rw [List.getElem?_append_left hk]
    · rw [List.getElem?_append_right hk, List.getElem?_eq_none hk, List.getElem?_replicate]
      split <;> rfl
  have hfirst := hword 0
  rw [List.drop_zero, List.drop_zero] at hfirst
  simp only [text_eq, hfirst, hword]

/-! ### Rows of an image -/

namespace Image.Hex

/-- A row of a text image: its words, and the address and the text in its comment. -/
structure Row where
  words : List UInt16
  start : Nat
  text : String
  deriving DecidableEq, Repr

/-- Reads a row: the words before the semicolon, the address before the colon behind it, and the
text behind the colon. -/
def Row.read? (row : List Char) : Option Row := do
  let words ← (Text.words (code row)).mapM word?
  let comment := (row.dropWhile (· != ';')).drop 2
  let start ← Text.readNat? 16 (comment.takeWhile (· != ':'))
  return { words, start, text := .ofList ((comment.dropWhile (· != ':')).drop 2) }

/-- Reads the rows of an image under its heading of three lines. -/
def rows? (image : List Char) : Option (List Row) := ((Text.lines image).drop 3).mapM Row.read?

/-- The row that shows a group. -/
def Group.shown (g : Group) : Row := ⟨g.words, g.start, g.comment⟩

theorem Row.read?_row (g : Group) : Row.read? g.row = some g.shown := by
  have hwords : (Text.words (code g.row)).mapM word? = some g.words := by
    rw [g.words_code_row, List.mapM_map]
    exact (mapM_eq_some_map fun w _ => word?_hex4 w).trans (by rw [List.map_id'])
  have hsemicolon : ';' ∉ g.column := fun h => absurd (g.column_subset h) (by decide)
  have hcolon : ':' ∉ (Text.hex4 g.start).toList :=
    fun h => absurd (Text.hex4_subset _ h) (by decide)
  rw [Row.read?, hwords, Group.row, Text.dropWhile_append_cons hsemicolon]
  simp only [List.drop_succ_cons, List.drop_zero, Text.takeWhile_append_cons hcolon,
    Text.dropWhile_append_cons hcolon, Text.readNat?_hex4, String.ofList_toList]
  rfl

theorem rows?_render (program : List UInt16) :
    rows? (render program).toList = some ((groups program).map Group.shown) := by
  obtain ⟨title, size, hlines⟩ := lines_render program
  rw [rows?, hlines, List.drop_succ_cons, List.drop_succ_cons, List.drop_succ_cons,
    List.drop_zero, List.mapM_map]
  exact mapM_eq_some_map fun g _ => Row.read?_row g

end Image.Hex

/-! ### The same cuts -/

namespace Listing

/-- Fetching does not wrap below the last address: it gives the words of the program, then zeros. -/
theorem wordsAt_fetch_drop (program : List UInt16) {p n : Nat} (h : p + n ≤ 65536) :
    wordsAt (fetch program.toArray) (.ofNat p) n =
      (program.drop p).take n ++ List.replicate (n - (program.length - p)) 0 := by
  apply List.ext_getElem?
  intro k
  rcases Nat.lt_or_ge k n with hk | hk
  · have haddress : (UInt16.ofNat p + .ofNat k).toNat = p + k := by
      rw [← UInt16.ofNat_add, UInt16.toNat_ofNat']
      omega
    rw [getElem?_wordsAt _ _ hk, fetch, haddress]
    rcases Nat.lt_or_ge (p + k) program.length with hin | hout
    · rw [List.getElem?_append_left (by rw [List.length_take, List.length_drop]; omega),
        List.getElem?_take_of_lt hk, List.getElem?_drop]
      simp [hin]
    · rw [List.getElem?_append_right (by rw [List.length_take, List.length_drop]; omega),
        List.getElem?_replicate_of_lt (by rw [List.length_take, List.length_drop]; omega)]
      simp [hout]
  · rw [List.getElem?_eq_none (by rw [length_wordsAt]; exact hk), List.getElem?_eq_none]
    rw [List.length_append, List.length_take, List.length_drop, List.length_replicate]
    omega

/-- A row of a listing and a row of an image show the same instruction at the same address; only
the listing completes words that the end of the program cuts off. -/
structure SameCut (l : Line) (r : Image.Hex.Row) : Prop where
  start : r.start = l.address
  text : r.text = l.text
  words : ∃ n, l.raw = r.words ++ List.replicate n 0

theorem sameCut_lineAt {program : List UInt16} {position : Nat} (indented : Bool) {w : UInt16}
    {rest : List UInt16} (hshort : program.length ≤ 65534)
    (hrest : program.drop position = w :: rest) :
    (lineAt program.toArray position indented).raw.length = Image.Hex.sizeOf w ∧
      SameCut (lineAt program.toArray position indented)
        (Image.Hex.Group.shown ⟨position, (w :: rest).take (Image.Hex.sizeOf w)⟩) := by
  have hinside : position < program.length := by
    have hlength := congrArg List.length hrest
    rw [List.length_drop, List.length_cons] at hlength
    omega
  obtain ⟨i, hi⟩ := Instruction.exists_decode w
  have hsize : Image.Hex.sizeOf w = i.size := by simp only [Image.Hex.sizeOf, hi]
  have hpos := i.size_pos
  have hle := i.size_le
  obtain ⟨k, hk⟩ : ∃ k, i.size = k + 1 := ⟨i.size - 1, by omega⟩
  have hwords : wordsAt (fetch program.toArray) (.ofNat position) i.size =
      w :: (rest.take k ++ List.replicate (i.size - (program.length - position)) 0) := by
    rw [wordsAt_fetch_drop program (by omega), hrest, hk]
    rfl
  have hfetch : fetch program.toArray (.ofNat position) = w := by
    rw [hk, wordsAt_succ] at hwords
    exact (List.cons_eq_cons.mp hwords).1
  have htext :
      textAt (fetch program.toArray) (.ofNat position) = (i.text (rest.take k), i.size) := by
    rw [textAt_eq (hfetch ▸ hi), hk, Nat.add_sub_cancel]
    rw [hk, wordsAt_succ] at hwords
    rw [(List.cons_eq_cons.mp hwords).2, i.text_append_replicate]
  have hraw : (lineAt program.toArray position indented).raw =
      wordsAt (fetch program.toArray) (.ofNat position) i.size := by
    rw [raw_lineAt, length_raw_lineAt, htext]
  refine ⟨by rw [hraw, length_wordsAt, hsize], rfl, ?_, ?_⟩
  · show Image.Hex.Group.comment _ = (textAt _ _).1
    rw [htext, hsize, hk]
    simp only [Image.Hex.Group.comment, List.take_succ_cons, hi]
  · refine ⟨i.size - (program.length - position), ?_⟩
    rw [hraw, hwords, hsize, hk]
    rfl

/-- The lines from a position on and the groups of the words from there on cut the program alike. -/
theorem Covers.sameCut {program : List UInt16} {position n : Nat} {ls : List Line}
    (h : Covers program.toArray position n ls) (hshort : program.length ≤ 65534)
    (start : Nat) (hstart : position < program.length → start = position)
    (done : List Image.Hex.Group) :
    ∃ gs, Image.Hex.groupsFrom start done (program.drop position) = done.reverse ++ gs ∧
      List.Forall₂ SameCut ls (gs.map Image.Hex.Group.shown) := by
  induction h generalizing start done with
  | nil hend =>
    refine ⟨[], ?_, .nil⟩
    rw [List.drop_eq_nil_of_le (by simpa using hend), Image.Hex.groupsFrom, List.append_nil]
  | @cons position n l ls indented hinside hl _ ih =>
    rw [List.size_toArray] at hinside
    obtain rfl := hstart hinside
    obtain ⟨w, rest, hrest⟩ := List.exists_cons_of_length_pos (l := program.drop start)
      (by rw [List.length_drop]; omega)
    obtain ⟨hlength, hsame⟩ := sameCut_lineAt indented hshort hrest
    rw [← hl] at hlength hsame
    have hdrop : (w :: rest).drop (Image.Hex.sizeOf w) = program.drop (start + l.raw.length) := by
      rw [← hrest, List.drop_drop, hlength]
    obtain ⟨gs, hgs, hall⟩ := ih (start + ((w :: rest).take (Image.Hex.sizeOf w)).length) (by
      -- Words behind the instruction mean that it is complete.
      intro hnext
      have hwhole := congrArg List.length hrest
      rw [List.length_drop] at hwhole
      rw [List.length_take]
      omega) (⟨start, (w :: rest).take (Image.Hex.sizeOf w)⟩ :: done)
    refine ⟨⟨start, (w :: rest).take (Image.Hex.sizeOf w)⟩ :: gs, ?_, .cons hsame hall⟩
    rw [hrest, Image.Hex.groupsFrom, hdrop, hgs, List.reverse_cons, List.append_assoc]
    rfl

theorem sameCut_lines {program : List UInt16} (hshort : program.length ≤ 65534) :
    List.Forall₂ SameCut (lines program)
      ((Image.Hex.groups program).map Image.Hex.Group.shown) := by
  obtain ⟨n, hcovers⟩ := exists_covers_lines program
  obtain ⟨gs, hgs, hall⟩ := hcovers.sameCut hshort 0 (fun _ => rfl) []
  rw [List.drop_zero, List.reverse_nil, List.nil_append] at hgs
  rwa [Image.Hex.groups, hgs]

/-! ### Memory -/

theorem Covers.textAt {program : Array UInt16} {position n : Nat} {ls : List Line}
    (h : Covers program position n ls) :
    ∀ l ∈ ls, Dcpu16.textAt (fetch program) (.ofNat l.address) = (l.text, l.raw.length) := by
  induction h with
  | nil => exact nofun
  | @cons position n l ls indented _ hl _ ih =>
    rintro l' (_ | ⟨_, hmem⟩)
    · rw [hl, length_raw_lineAt]
      rfl
    · exact ih l' hmem

/-- A full memory that holds the program fetches what the listing fetches. -/
theorem exists_load_full {program : List UInt16} (hfit : program.length ≤ 65536) :
    ∃ m, Memory.full.load 0 program = .ok m ∧ m.read = fetch program.toArray := by
  have hsize : Memory.full.size = 65536 := by
    rw [Memory.size, Memory.full, Array.size_replicate, Memory.fullSize]
  obtain ⟨m, hm⟩ : ∃ m, Memory.full.load 0 program = .ok m :=
    ⟨⟨_, _, _⟩, if_pos ⟨by rw [hsize]; decide, by rw [hsize]; exact hfit⟩⟩
  refine ⟨m, hm, funext fun address => ?_⟩
  have haddress := address.toNat_lt
  have hcount : m.cells.size = 65536 := (Memory.size_load hm).trans hsize
  have hcells : m.cells = Memory.overwrite Memory.full.cells 0 program :=
    (Memory.load_eq_ok.mp hm).2
  have hfetch : fetch program.toArray address = program[address.toNat]?.getD 0 := by
    rw [fetch, List.getElem?_toArray]
  have hread : m.cells[m.index address]? = some (fetch program.toArray address) := by
    rw [Memory.index, hcount, Nat.mod_eq_of_lt haddress, hcells, Memory.getElem?_overwrite _ _ _
      (by rw [← Memory.size, hsize, Nat.zero_add]; exact hfit), Nat.zero_add, Nat.sub_zero, hfetch]
    rcases Nat.lt_or_ge address.toNat program.length with hin | hout
    · rw [if_pos ⟨Nat.zero_le _, hin⟩, List.getElem?_eq_getElem hin]
      rfl
    · rw [if_neg (by omega), List.getElem?_eq_none hout, Memory.full, Array.getElem?_replicate]
      exact if_pos haddress
  exact Option.some.inj ((Array.getElem?_eq_getElem _).symm.trans hread)

/-! ### Indentation -/

/-- The line shows one of the four conditionals. -/
def Line.IsConditional (l : Line) : Prop :=
  ∃ w extension i, l.raw = w :: extension ∧ Instruction.decode w = .ok i ∧
    i.opcode ∈ [Opcode.ife, .ifn, .ifg, .ifb]

theorem isConditional_lineAt (program : Array UInt16) (position : Nat) (indented : Bool) :
    (lineAt program position indented).IsConditional ↔
      isConditionalAt program (.ofNat position) = true := by
  obtain ⟨i, hi⟩ := Instruction.exists_decode (fetch program (.ofNat position))
  have hraw : (lineAt program position indented).raw = fetch program (.ofNat position) ::
      wordsAt (fetch program) (.ofNat position + 1) (i.size - 1) := by
    rw [raw_lineAt, length_raw_lineAt, textAt_eq hi, ← wordsAt_succ, Nat.sub_add_cancel i.size_pos]
  have hopcode : isConditionalAt program (.ofNat position) = i.opcode.isConditional := by
    simp only [isConditionalAt, hi]
  rw [hopcode]
  constructor
  · rintro ⟨w, extension, j, hwords, hj, hmem⟩
    rw [hraw] at hwords
    obtain ⟨rfl, -⟩ := List.cons_eq_cons.mp hwords
    obtain rfl := Except.ok.inj (hi.symm.trans hj)
    revert hmem
    cases i.opcode <;> decide
  · intro hconditional
    refine ⟨_, _, i, hraw, hi, ?_⟩
    revert hconditional
    cases i.opcode <;> decide

/-- The first line is indented as it is told, and every other one if a conditional stands before
it. -/
inductive Indents : Bool → List Line → Prop
  | nil {indented : Bool} : Indents indented []
  | cons {l : Line} {ls : List Line} {next : Bool} : (next = true ↔ l.IsConditional) →
      Indents next ls → Indents l.indented (l :: ls)

theorem exists_indents (program : Array UInt16) (position : Nat) (indented : Bool)
    (done : List Line) :
    ∃ ls, linesFrom program position indented done = done.reverse ++ ls ∧ Indents indented ls := by
  induction position, indented, done using linesFrom.induct program with
  | case1 position indented done h address ih =>
    obtain ⟨ls, hlines, hindents⟩ := ih
    refine ⟨lineAt program position indented :: ls, ?_,
      .cons (isConditional_lineAt program position indented).symm hindents⟩
    rw [linesFrom, if_pos h, hlines, List.reverse_cons, List.append_assoc]
    rfl
  | case2 position indented done h =>
    refine ⟨[], ?_, .nil⟩
    rw [linesFrom, if_neg h, List.append_nil]

theorem Indents.indented_iff {indented : Bool} {ls : List Line} (h : Indents indented ls) {k : Nat}
    {l : Line} (hk : ls[k]? = some l) :
    l.indented = true ↔ k = 0 ∧ indented = true ∨
      ∃ j before, k = j + 1 ∧ ls[j]? = some before ∧ before.IsConditional := by
  induction h generalizing k with
  | nil => cases hk
  | @cons first ls next hnext _ ih =>
    cases k with
    | zero =>
      obtain rfl := Option.some.inj hk
      simp
    | succ k =>
      rw [ih hk]
      cases k with
      | zero => simp [hnext]
      | succ k => simp

theorem indented_iff {program : List UInt16} {k : Nat} {l : Line}
    (hk : (lines program)[k]? = some l) :
    l.indented = true ↔
      ∃ j before, k = j + 1 ∧ (lines program)[j]? = some before ∧ before.IsConditional := by
  obtain ⟨ls, hlines, hindents⟩ := exists_indents program.toArray 0 false []
  rw [List.reverse_nil, List.nil_append] at hlines
  rw [lines, hlines] at hk ⊢
  simpa using hindents.indented_iff hk

/-! ### Programs -/

/-- The rows of a listing and the rows of a text image of a program show the same instructions at
the same addresses, with the text that the disassembler gives there in a full memory that holds the
program; a listing has zeros for the words that the end of the program cuts off.  A row of the
listing is indented exactly if the row before it shows a conditional. -/
theorem walkers_agree {program : List UInt16} (hshort : program.length ≤ 65534) :
    ∃ ls rs m, read? (render program).toList = some ls ∧
      Image.Hex.rows? (Image.Hex.render program).toList = some rs ∧
      List.Forall₂ SameCut ls rs ∧
      Memory.full.load 0 program = .ok m ∧
      (∀ l ∈ ls, l.IsInstruction ∧ l.address < program.length ∧
        m.textAt (.ofNat l.address) = (l.text, l.raw.length)) ∧
      ∀ k l, ls[k]? = some l → (l.indented = true ↔
        ∃ j before, k = j + 1 ∧ ls[j]? = some before ∧ before.IsConditional) := by
  obtain ⟨m, hm, hread⟩ := @exists_load_full program (by omega)
  obtain ⟨n, hcovers⟩ := exists_covers_lines program
  refine ⟨lines program, _, m, read?_render program, Image.Hex.rows?_render program,
    sameCut_lines hshort, hm, fun l hl => ?_, fun k l hk => indented_iff hk⟩
  obtain ⟨hinstruction, hinside⟩ := hcovers.mem l hl
  rw [List.size_toArray] at hinside
  refine ⟨hinstruction, hinside, ?_⟩
  rw [Memory.textAt, hread]
  exact hcovers.textAt l hl

/-- The last instruction lacks its next word, and the conditional before it has one. -/
theorem walkers_agree_truncated :
    ∃ ls rs m, read? (render [0x7C0D, 0x0010, 0x7DC1]).toList = some ls ∧
      Image.Hex.rows? (Image.Hex.render [0x7C0D, 0x0010, 0x7DC1]).toList = some rs ∧
      List.Forall₂ SameCut ls rs ∧
      Memory.full.load 0 [0x7C0D, 0x0010, 0x7DC1] = .ok m ∧
      (∀ l ∈ ls, m.textAt (.ofNat l.address) = (l.text, l.raw.length)) ∧
      ls = [⟨0, false, "IFN A, 0x0010", [0x7C0D, 0x0010]⟩,
        ⟨2, true, "SET PC, 0x0000", [0x7DC1, 0x0000]⟩] := by
  obtain ⟨ls, rs, m, hls, hrs, hsame, hm, hlines, -⟩ :=
    @walkers_agree [0x7C0D, 0x0010, 0x7DC1] (by decide)
  refine ⟨ls, rs, m, hls, hrs, hsame, hm, fun l hl => (hlines l hl).2.2, ?_⟩
  rw [read?_render] at hls
  obtain rfl := Option.some.inj hls
  decide +kernel

end Listing

end Dcpu16
