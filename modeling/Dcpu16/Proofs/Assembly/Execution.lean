import Dcpu16.Proofs.Assembly.TwoPass
import Dcpu16.Proofs.Machine.ClosedForm
import Dcpu16.Proofs.Machine.Loading

/-! Assembled instructions mean what their lines say.  An operand as written has a place of its own,
for the addresses of labels and the registers; a tick on the assembled words finds its operands in
these places and goes on behind the words of the line. -/

namespace Dcpu16.Assembly

/-! ### Operands as written -/

/-- The place that an operand is written for. -/
def Form.location (address : String → UInt16) (rs : Registers) : Form → Location
  | register r => .register r
  | indirect r => .cell (rs.get r)
  | offset t r => .cell (t.word address + rs.get r)
  | cell t => .cell (t.word address)
  | term t => .value (t.word address)
  | pop | peek => .cell rs.sp
  | push => .cell (rs.sp - 1)
  | sp => .sp
  | pc => .pc
  | overflow => .overflow

def Form.stackShift : Form → UInt16
  | pop => 1
  | push => -1
  | _ => 0

/-- The registers as the operand after this one sees them. -/
def Form.passed (f : Form) (rs : Registers) : Registers :=
  { rs with pc := rs.pc + .ofNat f.size, sp := rs.sp + f.stackShift }

theorem Form.extraWords_operand (f : Form) : f.operand.extraWords = f.size := by
  cases f with
  | term t =>
    cases t with
    | number n =>
      by_cases h : (Term.number n).Embeds
      · simp [operand, size, Operand.extraWords, h, show n % 65536 ≤ 0x1F from h]
      · simp [operand, size, Operand.extraWords, h, show ¬n % 65536 ≤ 0x1F from h]
    | label key => rfl
  | _ => rfl

theorem Form.stackShift_operand (f : Form) : f.operand.stackShift = f.stackShift := by
  cases f with
  | term t =>
    cases t with
    | number n =>
      by_cases h : (Term.number n).Embeds <;> simp [operand, stackShift, Operand.stackShift, h]
    | label key => rfl
  | _ => rfl

theorem Form.fits_operand (f : Form) : f.operand.Fits := by
  cases f with
  | term t =>
    cases t with
    | number n =>
      by_cases h : (Term.number n).Embeds
      · have hn : n % 65536 ≤ 0x1F := h
        simp only [operand, if_pos h, Operand.Fits, UInt16.toNat_ofNat']
        omega
      · simp [operand, h, Operand.Fits]
    | label key => trivial
  | _ => trivial

theorem Form.past_operand (f : Form) (rs : Registers) : rs.past f.operand = f.passed rs := by
  rw [Registers.past, passed, f.extraWords_operand, f.stackShift_operand]

/-- Encoding and decoding an operand does not move it, if its extension word is found. -/
theorem Form.place_operand {address : String → UInt16} {f : Form} {w : UInt16}
    (hw : ∀ t, f.extension? = some t → w = t.word address) (rs : Registers) :
    f.operand.place rs rs.sp w = f.location address rs := by
  cases f with
  | term t =>
    cases t with
    | number n =>
      by_cases h : (Term.number n).Embeds
      · simp [operand, h, Operand.place, location, Term.word]
      · rw [hw (.number n) (by simp [extension?, h])]
        simp [operand, h, Operand.place, location]
    | label key =>
      rw [hw (.label key) rfl]
      rfl
  | offset t r =>
    rw [hw t rfl]
    simp [operand, Operand.place, location, UInt16.add_comm]
  | cell t =>
    rw [hw t rfl]
    rfl
  | _ => rfl

/-! ### Words in memory -/

open Layout

theorem Form.length_extension (address : String → UInt16) (f : Form) :
    (f.extension address).length = f.size := by
  rw [← f.length_extension?, extension]
  cases f.extension? <;> rfl

theorem Form.read_extension {address : String → UInt16} {f : Form} {m : Memory} {p : Nat}
    (h : m.WordsAt p (f.extension address)) {t : Term} (ht : f.extension? = some t) :
    m.read (.ofNat p) = t.word address := by
  rw [extension, ht] at h
  exact Memory.wordsAt_singleton.mp h

/-- The words of every line stand behind the words of the lines before it. -/
theorem wordsAt_image {m : Memory} {before after : List Entry} {e : Entry}
    (h : m.WordsAt 0 (image (before ++ e :: after))) :
    m.WordsAt (size before) (e.words (address (before ++ e :: after))) := by
  rw [image, List.flatMap_append, List.flatMap_cons, Memory.wordsAt_append, length_flatMap_words,
    Nat.zero_add, Memory.wordsAt_append] at h
  exact h.2.1

/-! ### Ticks -/

/-- The tick runs an instruction as it is written: on the operands that are written, each read where
it lies before the tick. -/
structure Executes (address : String → UInt16) (op : Opcode) (a b : Form) (m : Machine) (t : Tick)
    (m' : Machine) : Prop where
  instruction : t.instruction = ⟨op, a.operand, b.operand⟩
  placeA : m.placeA t.instruction = a.location address m.registers
  placeB : m.placeB t.instruction = b.location address (a.passed m.registers)
  valueA : t.a = (a.location address m.registers).read m.registers m.memory
  valueB : t.b = (b.location address (a.passed m.registers)).read (a.passed m.registers) m.memory
  outcome : m.outcome t.instruction = op.outcome t.a t.b
  /-- The operands that are written move the stack pointer, unless the tick stores to it. -/
  stack : (a = .sp → (op.outcome t.a t.b).value? = none) →
    m'.registers.sp = m.registers.sp + a.stackShift + b.stackShift
  after : m.After t.instruction m'

theorem Form.location_eq_pc {address : String → UInt16} {f : Form} {rs : Registers} :
    f.location address rs = .pc ↔ f = .pc := by
  cases f <;> simp [location]

theorem Form.location_eq_sp {address : String → UInt16} {f : Form} {rs : Registers} :
    f.location address rs = .sp ↔ f = .sp := by
  cases f <;> simp [location]

theorem exists_executes {address : String → UInt16} {op : Opcode} {a b : Form} {m : Machine}
    {p : Nat} (hpc : m.registers.pc = .ofNat p)
    (hwords : m.memory.WordsAt p ((Clause.instruction op a b).words address)) :
    ∃ t m', m.tick = .ok (t, m') ∧ t.instruction.size = (Clause.instruction op a b).size ∧
      Executes address op a b m t m' := by
  rw [Clause.words, ← List.singleton_append, Memory.wordsAt_append, Memory.wordsAt_singleton,
    Memory.wordsAt_append, a.length_extension] at hwords
  obtain ⟨hword, hextA, hextB⟩ := hwords
  have hdecode : Instruction.decode (m.memory.read m.registers.pc) =
      .ok ⟨op, a.operand, b.operand⟩ := by
    rw [hpc, hword]
    exact Instruction.decode_encode ⟨a.fits_operand, b.fits_operand⟩
  have hplaceA : m.placeA ⟨op, a.operand, b.operand⟩ = a.location address m.registers := by
    refine Form.place_operand (fun t ht => ?_) m.registers
    rw [hpc, ← Form.read_extension hextA ht, UInt16.ofNat_add]
    rfl
  have hplaceB : m.placeB ⟨op, a.operand, b.operand⟩ =
      b.location address (a.passed m.registers) := by
    rw [← a.past_operand, Machine.placeB, ← Operand.place_past b.operand a.operand]
    refine Form.place_operand (fun t ht => ?_) (m.registers.past a.operand)
    rw [hpc, ← Form.read_extension hextB ht, UInt16.ofNat_add, UInt16.ofNat_add,
      a.extraWords_operand]
    rfl
  have hvalueA : m.valueA ⟨op, a.operand, b.operand⟩ =
      (a.location address m.registers).read m.registers m.memory :=
    congrArg (·.read m.registers m.memory) hplaceA
  have hvalueB : m.valueB ⟨op, a.operand, b.operand⟩ =
      (b.location address (a.passed m.registers)).read (a.passed m.registers) m.memory := by
    rw [Machine.valueB, hplaceB, ← a.past_operand]
    rfl
  have hafter := m.after_next ⟨op, a.operand, b.operand⟩
  refine ⟨_, _, Machine.tick_eq hdecode, ?_, rfl, hplaceA, hplaceB, hvalueA, hvalueB, rfl,
    fun hstore => ?_, hafter⟩
  · rw [Instruction.size, Clause.size, a.extraWords_operand, b.extraWords_operand]
  · rw [hafter.sp, a.stackShift_operand, b.stackShift_operand]
    split
    · next v hsp =>
      obtain ⟨v', hv', hplace⟩ := Option.map_eq_some_iff.mp hsp
      have ha := Form.location_eq_sp.mp (hplaceA.symm.trans (congrArg Prod.fst hplace))
      cases hv'.symm.trans (hstore ha)
    · rfl

/-- The program counter moves past the words of the line, unless a condition fails or the line
writes the program counter. -/
theorem Executes.pc {address : String → UInt16} {op : Opcode} {a b : Form} {m m' : Machine}
    {t : Tick} (h : Executes address op a b m t m') (hskip : op.outcome t.a t.b ≠ .skip)
    (hpc : a = .pc → (op.outcome t.a t.b).value? = none) :
    m'.registers.pc = m.registers.pc + .ofNat t.instruction.size := by
  refine h.after.pc_of_proceeds (by rwa [h.outcome]) fun v hstore => ?_
  obtain ⟨v', hv', hplace⟩ := Option.map_eq_some_iff.mp hstore
  have ha := Form.location_eq_pc.mp (h.placeA.symm.trans (congrArg Prod.fst hplace))
  rw [h.outcome, hpc ha] at hv'
  cases hv'

/-- In an assembled program that is loaded, a tick at an instruction of the source runs it as it is
written, as long as its own words are still in memory. -/
theorem tick_assembled {source : List Char} {ws : List UInt16} {before after : List Entry}
    {e : Entry} {op : Opcode} {a b : Form} (hws : assemble source = .ok ws)
    (hreads : List.Forall₂ Entry.Reads (Text.lines source) (before ++ e :: after))
    (hclause : e.clause = some (.instruction op a b)) {m₀ : Machine}
    (hfit : ws.length ≤ m₀.memory.size) :
    ∃ m₁, m₀.load 0 ws = .ok m₁ ∧
      ∀ m : Machine, m.registers.pc = .ofNat (size before) →
        (∀ k < e.size, m.memory.read (.ofNat (size before + k)) =
          m₁.memory.read (.ofNat (size before + k))) →
        ∃ t m', m.tick = .ok (t, m') ∧
          Executes (address (before ++ e :: after)) op a b m t m' ∧
          (op.outcome t.a t.b ≠ .skip → (a = .pc → (op.outcome t.a t.b).value? = none) →
            m'.registers.pc = .ofNat (size before + e.size)) := by
  obtain ⟨-, rfl⟩ := wellFormed_of_assemble hws hreads
  obtain ⟨m₁, hload, hwords⟩ := m₀.exists_load_zero hfit
  refine ⟨m₁, hload, fun m hpc hcells => ?_⟩
  have hline : m.memory.WordsAt (size before)
      ((Clause.instruction op a b).words (address (before ++ e :: after))) := by
    intro k w hk
    have hentry : e.words (address (before ++ e :: after)) =
        (Clause.instruction op a b).words (address (before ++ e :: after)) := by
      rw [Entry.words, hclause]
      rfl
    rw [← hentry] at hk
    rw [hcells k (by rw [← e.length_words]; exact (List.getElem?_eq_some_iff.mp hk).1)]
    exact wordsAt_image hwords k w hk
  have hsize : e.size = (Clause.instruction op a b).size := by
    rw [Entry.size, hclause]
    rfl
  obtain ⟨t, m', htick, hlen, hexecutes⟩ := exists_executes hpc hline
  refine ⟨t, m', htick, hexecutes, fun hskip hwrite => ?_⟩
  rw [hexecutes.pc hskip hwrite, hpc, hlen, hsize, UInt16.ofNat_add]

/-- An addition to the third cell after a program, whose end is named after its first use. -/
theorem tick_assembled_forward_reference :
    ∃ ws m₁, assemble "ADD [end+X], 0x30\n:end".toList = .ok ws ∧
      Machine.start.load 0 ws = .ok m₁ ∧
      ∃ t m', { m₁ with registers := { x := 3 } }.tick = .ok (t, m') ∧
        t.instruction = ⟨.add, .offset .x, .next⟩ ∧
        Machine.placeA { m₁ with registers := { x := 3 } } t.instruction = .cell 6 ∧
        t.b = 0x30 ∧ m'.registers.pc = 3 := by
  have hadd : Entry.Reads "ADD [end+X], 0x30".toList
      ⟨none, some (.instruction .add (.offset (.label "END") .x) (.term (.number 0x30)))⟩ := by
    have hend : Term.Reads "END".toList (.label "END") := .label rfl rfl
    have hnumber : Term.Reads "0X30".toList (.number 0x30) :=
      .number rfl (by decide) (by decide) (by decide)
    have haddress : Form.Addresses "END+X".toList (.offset (.label "END") .x) :=
      .offsetBefore (rfl : _ = "END".toList ++ '+' :: "X".toList) (by decide) rfl rfl hend
    have hterm : Form.Reads "0x30".toList (.term (.number 0x30)) :=
      .term (Form.bare_iff.mpr ⟨rfl, rfl⟩) rfl hnumber
    exact ⟨.none rfl, .some (by decide)
      (.instruction rfl rfl rfl (by decide) (by decide) (.address rfl haddress) hterm)⟩
  have hend : Entry.Reads ":end".toList ⟨some (labelKey "end".toList), none⟩ :=
    ⟨.some rfl rfl, .none rfl⟩
  have hreads : List.Forall₂ Entry.Reads (Text.lines "ADD [end+X], 0x30\n:end".toList)
      ([] ++ ⟨none, some (.instruction .add (.offset (.label "END") .x) (.term (.number 0x30)))⟩ ::
        [⟨some (labelKey "end".toList), none⟩]) := .cons hadd (.cons hend .nil)
  have hws := assemble_of_wellFormed hreads ⟨⟨by decide, fun key a ha => by
    revert ha
    simp only [List.nil_append, address?, reduceCtorEq, if_false]
    split <;> simp [Entry.size, Clause.size, Form.size]
    omega⟩, by decide, by decide⟩
  obtain ⟨m₁, hload, htick⟩ := @tick_assembled _ _ _ _ _ _ _ _ hws hreads rfl .start <| by
    rw [length_image]
    simp only [Machine.start, Memory.full, Memory.size, Array.size_replicate]
    decide
  obtain ⟨t, m', htick, hexecutes, hpc⟩ :=
    htick { m₁ with registers := { x := 3 } } rfl (fun _ _ => rfl)
  exact ⟨_, m₁, hws, hload, t, m', htick, hexecutes.instruction, hexecutes.placeA, hexecutes.valueB,
    hpc (by intro hskip; cases hskip) (by intro hplace; cases hplace)⟩

end Dcpu16.Assembly
