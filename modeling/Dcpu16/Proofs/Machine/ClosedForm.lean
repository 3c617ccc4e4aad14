import Dcpu16.Machine.State
import Dcpu16.Proofs.Machine.Decoding

/-! What a tick does, said of the state before it alone: where the operands lie, what they read, and
what each part of the machine holds afterwards. -/

namespace Dcpu16

/-! ### Operands -/

/-- How far the stack pointer moves when the operand is resolved. -/
def Operand.stackShift : Operand → UInt16
  | pop => 1
  | push => -1
  | _ => 0

/-- The place of an operand, for a stack pointer `sp` and an extension word `w`. -/
def Operand.place (x : Operand) (rs : Registers) (sp w : UInt16) : Location :=
  match x with
  | register r => .register r
  | indirect r => .cell (rs.get r)
  | offset r => .cell (rs.get r + w)
  | pop | peek => .cell sp
  | push => .cell (sp - 1)
  | .sp => .sp
  | pc => .pc
  | overflow => .overflow
  | nextCell => .cell w
  | next => .value w
  | literal v => .value v

/-- The registers once an operand is resolved. -/
def Registers.past (rs : Registers) (x : Operand) : Registers :=
  { rs with pc := rs.pc + .ofNat x.extraWords, sp := rs.sp + x.stackShift }

@[simp] theorem Registers.get_past (rs : Registers) (x : Operand) (r : Register) :
    (rs.past x).get r = rs.get r := by cases r <;> rfl

theorem Registers.flagWord_past (rs : Registers) (x : Operand) :
    (rs.past x).flagWord = rs.flagWord := rfl

@[simp] theorem Registers.sp_past (rs : Registers) (x : Operand) :
    (rs.past x).sp = rs.sp + x.stackShift := rfl

@[simp] theorem Registers.pc_past (rs : Registers) (x : Operand) :
    (rs.past x).pc = rs.pc + .ofNat x.extraWords := rfl

@[simp] theorem Registers.get_advance (rs : Registers) (r : Register) :
    rs.advance.get r = rs.get r := by cases r <;> rfl

@[simp] theorem Registers.o_advance (rs : Registers) : rs.advance.o = rs.o := rfl

@[simp] theorem Registers.sp_advance (rs : Registers) : rs.advance.sp = rs.sp := rfl

@[simp] theorem Registers.pc_advance (rs : Registers) : rs.advance.pc = rs.pc + 1 := rfl

@[simp] theorem Operand.place_past (x y : Operand) (rs : Registers) (sp w : UInt16) :
    x.place (rs.past y) sp w = x.place rs sp w := by
  cases x <;> simp [place]

theorem Operand.resolve_eq (x : Operand) (rs : Registers) (m : Memory) :
    x.resolve rs m = (x.place rs rs.sp (m.read (rs.pc + 1)), rs.past x) := by
  cases x with
  | offset r =>
    have hpast : rs.past (offset r) = rs.advance := by
      simp [Registers.past, Registers.advance, extraWords, stackShift]
    simp [resolve, place, Registers.takeWord, hpast]
  | _ =>
    simp [resolve, place, Registers.past, Registers.takeWord, Registers.advance, Registers.grow,
      Registers.shrink, extraWords, stackShift, UInt16.sub_eq_add_neg]

/-- The side effects of an operand do not change what it reads. -/
theorem Operand.read_place_past (x : Operand) (rs : Registers) (m : Memory) (w : UInt16) :
    (x.place rs rs.sp w).read (rs.past x) m = (x.place rs rs.sp w).read rs m := by
  cases x <;> simp [place, Location.read, extraWords, stackShift, Registers.flagWord_past]

/-! ### Outcomes -/

namespace Outcome

/-- The word that an outcome stores, if it stores one. -/
def value? : Outcome → Option UInt16
  | write v _ => some v
  | _ => none

/-- The overflow flag that an outcome asks for, if it asks for one. -/
def flag? : Outcome → Option Bool
  | write _ flag => flag
  | _ => none

/-- The number of words beyond the instruction that an outcome steps over. -/
def skipped : Outcome → UInt16
  | skip => 1
  | _ => 0

end Outcome

/-! ### Stores -/

namespace Location

variable (l : Location) (rs : Registers) (m : Memory) (v : UInt16)

theorem get_write (r : Register) : (l.write rs m v).1.get r =
    match l with
    | register target => if r = target then v else rs.get r
    | _ => rs.get r := by
  cases l with
  | register target => exact Registers.get_set rs target r v
  | _ => cases r <;> rfl

theorem o_write : (l.write rs m v).1.o = match l with | overflow => v != 0 | _ => rs.o := by
  cases l <;> simp [write]

theorem sp_write : (l.write rs m v).1.sp = match l with | .sp => v | _ => rs.sp := by
  cases l <;> simp [write]

theorem pc_write : (l.write rs m v).1.pc = match l with | .pc => v | _ => rs.pc := by
  cases l <;> simp [write]

theorem size_write : (l.write rs m v).2.size = m.size := by
  cases l <;> simp [write]

theorem read_write (address : UInt16) : (l.write rs m v).2.read address =
    match l with
    | cell target => if m.index address = m.index target then v else m.read address
    | _ => m.read address := by
  cases l with
  | cell target => exact Memory.read_write m target v address
  | _ => rfl

end Location

/-! ### Memory -/

theorem Memory.ext_read {m n : Memory} (hsize : m.size = n.size)
    (hread : ∀ address, m.read address = n.read address) : m = n := by
  obtain ⟨cells, hpos, hle⟩ := m
  obtain ⟨others, hpos', hle'⟩ := n
  simp only [size] at hsize
  simp only [mk.injEq]
  refine Array.ext hsize fun k hk hk' => ?_
  have hword : (UInt16.ofNat k).toNat = k := by
    rw [UInt16.toNat_ofNat']
    exact Nat.mod_eq_of_lt (by unfold fullSize at hle; omega)
  have h := hread (.ofNat k)
  simpa [read, index, hword, Nat.mod_eq_of_lt hk, Nat.mod_eq_of_lt hk'] using h

/-! ### Ticks -/

namespace Machine

/-- The place of operand A of the instruction at the program counter. -/
def placeA (m : Machine) (i : Instruction) : Location :=
  i.a.place m.registers m.registers.sp (m.memory.read (m.registers.pc + 1))

/-- The place of operand B, whose extension word follows that of A and whose stack pointer is the
one that A leaves. -/
def placeB (m : Machine) (i : Instruction) : Location :=
  i.b.place m.registers (m.registers.sp + i.a.stackShift)
    (m.memory.read (m.registers.pc + 1 + .ofNat i.a.extraWords))

def valueA (m : Machine) (i : Instruction) : UInt16 := (m.placeA i).read m.registers m.memory

/-- The word that operand B reads: only the program counter and the stack pointer can differ from
what they were before the tick. -/
def valueB (m : Machine) (i : Instruction) : UInt16 :=
  (m.placeB i).read
    { m.registers with
      pc := m.registers.pc + .ofNat i.a.extraWords
      sp := m.registers.sp + i.a.stackShift } m.memory

def outcome (m : Machine) (i : Instruction) : Outcome :=
  i.opcode.outcome (m.valueA i) (m.valueB i)

/-- What is stored and where, if the outcome is a store. -/
def store? (m : Machine) (i : Instruction) : Option (Location × UInt16) :=
  (m.outcome i).value?.map (m.placeA i, ·)

/-- The machine `m'` is what the instruction `i` at the program counter makes of `m`. -/
structure After (m : Machine) (i : Instruction) (m' : Machine) : Prop where
  size : m'.memory.size = m.memory.size
  /-- At most the cell that operand A denotes changes. -/
  cell (address : UInt16) : m'.memory.read address =
    match m.store? i with
    | some (.cell target, v) =>
      if m.memory.index address = m.memory.index target then v else m.memory.read address
    | _ => m.memory.read address
  /-- At most the register that operand A names changes. -/
  register (r : Register) : m'.registers.get r =
    match m.store? i with
    | some (.register target, v) => if r = target then v else m.registers.get r
    | _ => m.registers.get r
  /-- A store to the flag wins over the flag that the outcome asks for. -/
  flag : m'.registers.o =
    match m.store? i with
    | some (.overflow, v) => v != 0
    | _ => (m.outcome i).flag?.getD m.registers.o
  sp : m'.registers.sp =
    match m.store? i with
    | some (.sp, v) => v
    | _ => m.registers.sp + i.a.stackShift + i.b.stackShift
  /-- A store to the program counter is followed by the step to the next word. -/
  pc : m'.registers.pc =
    match m.store? i with
    | some (.pc, v) => v + 1
    | _ => m.registers.pc + .ofNat i.size + (m.outcome i).skipped
  cycles : m'.cycles = m.cycles + 1
  last : m'.last = some i

/-- Nothing of the machine is left open. -/
theorem After.unique {m m₁ m₂ : Machine} {i : Instruction} (h₁ : m.After i m₁)
    (h₂ : m.After i m₂) : m₁ = m₂ := by
  have hregisters : m₁.registers = m₂.registers :=
    Registers.ext_get (fun r => (h₁.register r).trans (h₂.register r).symm)
      (h₁.pc.trans h₂.pc.symm) (h₁.sp.trans h₂.sp.symm) (h₁.flag.trans h₂.flag.symm)
  have hmemory : m₁.memory = m₂.memory :=
    Memory.ext_read (h₁.size.trans h₂.size.symm) fun address =>
      (h₁.cell address).trans (h₂.cell address).symm
  have hcycles := h₁.cycles.trans h₂.cycles.symm
  have hlast := h₁.last.trans h₂.last.symm
  cases m₁
  cases m₂
  simp only at hregisters hmemory hcycles hlast
  rw [hregisters, hmemory, hcycles, hlast]

/-- The program counter goes past the words of an instruction that neither skips nor writes it. -/
theorem After.pc_of_proceeds {m m' : Machine} {i : Instruction} (h : m.After i m')
    (hskip : m.outcome i ≠ .skip) (hwrite : ∀ v, m.store? i ≠ some (.pc, v)) :
    m'.registers.pc = m.registers.pc + .ofNat i.size := by
  have hskipped : (m.outcome i).skipped = 0 := by
    cases ho : m.outcome i with
    | skip => exact absurd ho hskip
    | _ => rfl
  rw [h.pc, hskipped, UInt16.add_zero]
  split
  · next v hstore => exact absurd hstore (hwrite v)
  · rfl

/-- The registers before an outcome is stored: both operands are resolved, the flag is what the
outcome asks for, and a word to step over is passed. -/
def settled (m : Machine) (i : Instruction) : Registers :=
  { (m.registers.past i.a).past i.b with
    o := (m.outcome i).flag?.getD m.registers.o
    pc := ((m.registers.past i.a).past i.b).pc + (m.outcome i).skipped }

@[simp] theorem get_settled (m : Machine) (i : Instruction) (r : Register) :
    (m.settled i).get r = m.registers.get r := by cases r <;> rfl

theorem pc_settled (m : Machine) (i : Instruction) :
    (m.settled i).pc + 1 = m.registers.pc + .ofNat i.size + (m.outcome i).skipped := by
  simp only [settled, Registers.pc_past, Instruction.size, UInt16.ofNat_add]
  ac_rfl

/-- The machine after an instruction, by the steps in which a tick makes it. -/
def next (m : Machine) (i : Instruction) : Machine :=
  let stored := match m.store? i with
    | some (l, v) => l.write (m.settled i) m.memory v
    | none => (m.settled i, m.memory)
  { registers := stored.1.advance, memory := stored.2, cycles := m.cycles + 1, last := some i }

theorem apply_eq (m : Machine) (i : Instruction) :
    apply (m.outcome i) (m.placeA i) ((m.registers.past i.a).past i.b) m.memory =
      match m.store? i with
      | some (l, v) => l.write (m.settled i) m.memory v
      | none => (m.settled i, m.memory) := by
  unfold store? settled
  cases m.outcome i with
  | write v flag =>
    cases flag <;>
      (simp only [apply, Outcome.value?, Outcome.flag?, Outcome.skipped, UInt16.add_zero]; rfl)
  | skip => rfl
  | nothing =>
    simp only [apply, Outcome.value?, Outcome.flag?, Outcome.skipped, UInt16.add_zero]
    rfl

theorem tick_eq {m : Machine} {i : Instruction}
    (h : Instruction.decode (m.memory.read m.registers.pc) = .ok i) :
    m.tick = .ok (⟨m.registers.pc, m.memory.read m.registers.pc, i, m.valueA i, m.valueB i⟩,
      m.next i) := by
  have hword : m.registers.pc + .ofNat i.a.extraWords + 1 =
      m.registers.pc + 1 + .ofNat i.a.extraWords := by ac_rfl
  have hb := i.b.read_place_past (m.registers.past i.a) m.memory
    (m.memory.read (m.registers.pc + 1 + .ofNat i.a.extraWords))
  simp only [Operand.place_past, Registers.sp_past] at hb
  simp only [tick, h, Operand.resolve_eq, Operand.read_place_past, Registers.pc_past,
    Registers.sp_past, Operand.place_past, hword, hb, next, ← apply_eq]
  rfl

theorem after_next (m : Machine) (i : Instruction) : m.After i (m.next i) := by
  have hpc := m.pc_settled i
  unfold next
  cases hs : m.store? i with
  | none =>
    exact ⟨rfl, fun _ => by rw [hs], fun r => by simp [hs], by rw [hs]; rfl, by rw [hs]; rfl,
      by rw [hs]; exact hpc, rfl, rfl⟩
  | some stored =>
    obtain ⟨l, v⟩ := stored
    constructor
    case size => exact l.size_write _ _ v
    case cell =>
      intro address
      rw [hs]
      exact (l.read_write _ _ v address).trans (by cases l <;> rfl)
    case register =>
      intro r
      rw [hs, Registers.get_advance, Location.get_write]
      cases l <;> simp
    case flag =>
      rw [hs, Registers.o_advance, Location.o_write]
      cases l <;> rfl
    case sp =>
      rw [hs, Registers.sp_advance, Location.sp_write]
      cases l <;> rfl
    case pc =>
      rw [hs, Registers.pc_advance, Location.pc_write]
      cases l <;> first | exact hpc | rfl
    case cycles => rfl
    case last => rfl

end Machine

end Dcpu16
