import Dcpu16.Proofs.Machine.ClosedForm

/-! The machine with every check in place.  Storage is an array of any length, changed in place, and
an operation that has no answer in its own type stops with a trap: a cell that is not there, a
divisor that is zero, a shift past the last bit, a result that does not fit.  On the storage of a
machine each operation ends without a trap and does what it does unchecked. -/

namespace Dcpu16

/-- Why a checked operation stops. -/
inductive Trap where
  /-- There is no cell of this number. -/
  | noCell (k : Nat)
  | zeroDivisor
  | wideShift
  | overflow
  deriving DecidableEq, Repr

/-- What a machine is made of, with cells in any number. -/
structure Storage where
  registers : Registers
  cells : Array UInt16
  cycles : UInt64
  last : Option Instruction

def Machine.storage (m : Machine) : Storage :=
  { registers := m.registers, cells := m.memory.cells, cycles := m.cycles, last := m.last }

namespace Checked

/-! ### Arithmetic -/

def add (x y : UInt32) : Except Trap UInt32 :=
  if x.toNat + y.toNat < UInt32.size then .ok (x + y) else .error .overflow

def mul (x y : UInt32) : Except Trap UInt32 :=
  if x.toNat * y.toNat < UInt32.size then .ok (x * y) else .error .overflow

def sub (x y : UInt16) : Except Trap UInt16 :=
  if y ≤ x then .ok (x - y) else .error .overflow

def div (x y : UInt16) : Except Trap UInt16 :=
  if y = 0 then .error .zeroDivisor else .ok (x / y)

def mod (x y : UInt16) : Except Trap UInt16 :=
  if y = 0 then .error .zeroDivisor else .ok (x % y)

def shiftLeft (x : UInt32) (n : UInt16) : Except Trap UInt32 :=
  if n < 32 then .ok (x <<< n.toUInt32) else .error .wideShift

def shiftRight (x n : UInt16) : Except Trap UInt16 :=
  if n < 16 then .ok (x >>> n) else .error .wideShift

/-- The outcome of an opcode, each guard in front of the operation that it guards.  Differences wrap
on purpose, and the other opcodes compute nothing that could fail. -/
def outcome (op : Opcode) (a b : UInt16) : Except Trap Outcome :=
  match op with
  | .add => (add a.toUInt32 b.toUInt32).map .wide
  | .mul => (mul a.toUInt32 b.toUInt32).map .wide
  | .div =>
    if b = 0 then .ok (.write 0 (some true)) else (div a b).map fun q => .write q (some false)
  | .mod =>
    if b = 0 then .ok (.write 0 (some false)) else (mod a b).map fun r => .write r (some false)
  | .shl =>
    if b < 16 then (shiftLeft a.toUInt32 b).map .wide else .ok (.write 0 (some (a != 0)))
  | .shr =>
    if b < 16 then (shiftRight a b).map fun v => .write v (some false)
    else .ok (.write 0 (some false))
  | _ => .ok (op.outcome a b)

theorem outcome_eq (op : Opcode) (a b : UInt16) : outcome op a b = .ok (op.outcome a b) := by
  have ha := a.toNat_lt
  have hb := b.toNat_lt
  cases op with
  | add =>
    have hsum : a.toUInt32.toNat + b.toUInt32.toNat < UInt32.size := by
      rw [UInt16.toNat_toUInt32, UInt16.toNat_toUInt32]
      show _ < 4294967296
      omega
    rw [outcome, add, if_pos hsum]
    rfl
  | mul =>
    have hproduct : a.toUInt32.toNat * b.toUInt32.toNat < UInt32.size := by
      rw [UInt16.toNat_toUInt32, UInt16.toNat_toUInt32]
      have hle : a.toNat * b.toNat ≤ 65535 * 65535 := Nat.mul_le_mul (by omega) (by omega)
      show _ < 4294967296
      omega
    rw [outcome, mul, if_pos hproduct]
    rfl
  | div =>
    by_cases h : b = 0
    · rw [outcome, Opcode.outcome, if_pos h, if_pos h]
    · rw [outcome, Opcode.outcome, if_neg h, if_neg h, div, if_neg h]
      rfl
  | mod =>
    by_cases h : b = 0
    · rw [outcome, Opcode.outcome, if_pos h, if_pos h]
    · rw [outcome, Opcode.outcome, if_neg h, if_neg h, mod, if_neg h]
      rfl
  | shl =>
    by_cases h : b < 16
    · have hwide : b < 32 := UInt16.lt_trans h (by decide)
      rw [outcome, Opcode.outcome, if_pos h, if_pos h, shiftLeft, if_pos hwide]
      rfl
    · rw [outcome, Opcode.outcome, if_neg h, if_neg h]
  | shr =>
    by_cases h : b < 16
    · rw [outcome, Opcode.outcome, if_pos h, if_pos h, shiftRight, if_pos h]
      rfl
    · rw [outcome, Opcode.outcome, if_neg h, if_neg h]
  | _ => rfl

/-! ### Decoding -/

/-- The operand of a value code; offsets into a range of codes are differences of words. -/
def operand (code : UInt16) : Except Trap (Except DecodeError Operand) :=
  if code < 0x08 then .ok (.ok (.register (.ofIndex code.toNat)))
  else if code < 0x10 then (sub code 0x08).map fun n => .ok (.indirect (.ofIndex n.toNat))
  else if code < 0x18 then (sub code 0x10).map fun n => .ok (.offset (.ofIndex n.toNat))
  else if code < 0x20 then .ok (Operand.ofCode code)
  else if code < 0x40 then (sub code 0x20).map fun v => .ok (.literal v)
  else .ok (.error (.invalidValueCode code))

theorem sub_eq {x y : UInt16} (h : y ≤ x) : sub x y = .ok (x - y) := if_pos h

theorem operand_eq (code : UInt16) : operand code = .ok (Operand.ofCode code) := by
  have hsub {k : UInt16} (h : ¬code < k) :
      sub code k = .ok (code - k) ∧ (code - k).toNat = code.toNat - k.toNat := by
    have hle : k ≤ code := UInt16.not_lt.mp h
    exact ⟨sub_eq hle, UInt16.toNat_sub_of_le _ _ hle⟩
  have hlt (k : UInt16) : code < k ↔ code.toNat < k.toNat := UInt16.lt_iff_toNat_lt
  by_cases h8 : code < 0x08
  · rw [operand, if_pos h8, Operand.ofCode]
    exact congrArg _ (if_pos ((hlt _).mp h8)).symm
  by_cases h10 : code < 0x10
  · obtain ⟨hdiff, hn⟩ := hsub h8
    rw [operand, if_neg h8, if_pos h10, hdiff, Operand.ofCode]
    simp only [hlt, UInt16.reduceToNat] at h8 h10 hn
    simp only [h8, h10, hn, if_true, if_false, Except.map]
  by_cases h18 : code < 0x18
  · obtain ⟨hdiff, hn⟩ := hsub h10
    rw [operand, if_neg h8, if_neg h10, if_pos h18, hdiff, Operand.ofCode]
    simp only [hlt, UInt16.reduceToNat] at h8 h10 h18 hn
    simp only [h8, h10, h18, hn, if_true, if_false, Except.map]
  by_cases h20 : code < 0x20
  · rw [operand, if_neg h8, if_neg h10, if_neg h18, if_pos h20]
  have hnamed : ∀ n < 32, 24 ≤ n → code.toNat ≠ n := by
    simp only [hlt, UInt16.reduceToNat] at h20
    omega
  by_cases h40 : code < 0x40
  · rw [operand, if_neg h8, if_neg h10, if_neg h18, if_neg h20, if_pos h40, (hsub h20).1,
      Operand.ofCode]
    simp only [hlt, UInt16.reduceToNat] at h8 h10 h18 h20 h40
    simp [h8, h10, h18, h40, hnamed, Except.map]
  · rw [operand, if_neg h8, if_neg h10, if_neg h18, if_neg h20, if_neg h40, Operand.ofCode]
    simp only [hlt, UInt16.reduceToNat] at h8 h10 h18 h20 h40
    simp [h8, h10, h18, h40, hnamed]

/-- The instruction of a word, taken apart by shifts. -/
def decode (word : UInt16) : Except Trap (Except DecodeError Instruction) := do
  let a ← operand ((← shiftRight word 4) &&& 0x3F)
  let b ← operand ((← shiftRight word 10) &&& 0x3F)
  return do
    let opcode ← Opcode.ofBits (word &&& 0x0F)
    return { opcode, a := ← a, b := ← b }

theorem decode_eq (word : UInt16) : decode word = .ok (Instruction.decode word) := by
  have hshift (k : UInt16) (hk : k < 16) : shiftRight word k = .ok (word >>> k) := if_pos hk
  rw [decode, hshift 4 (by decide), hshift 10 (by decide)]
  simp only [operand_eq]
  rfl

/-! ### Cells -/

variable {cells : Array UInt16}

/-- The number of the cell that an address selects. -/
def index (cells : Array UInt16) (address : UInt16) : Except Trap Nat :=
  if cells.size = 0 then .error .zeroDivisor else .ok (address.toNat % cells.size)

def load (cells : Array UInt16) (k : Nat) : Except Trap UInt16 :=
  if h : k < cells.size then .ok cells[k] else .error (.noCell k)

def store (cells : Array UInt16) (k : Nat) (v : UInt16) : Except Trap (Array UInt16) :=
  if h : k < cells.size then .ok (cells.set k v h) else .error (.noCell k)

def read (cells : Array UInt16) (address : UInt16) : Except Trap UInt16 := do
  load cells (← index cells address)

def write (cells : Array UInt16) (address v : UInt16) : Except Trap (Array UInt16) := do
  store cells (← index cells address) v

/-- Stores words in the cells from number `k` on. -/
def copy (cells : Array UInt16) (k : Nat) : List UInt16 → Except Trap (Array UInt16)
  | [] => .ok cells
  | w :: ws => do copy (← store cells k w) (k + 1) ws

theorem index_eq (m : Memory) (address : UInt16) :
    index m.cells address = .ok (m.index address) :=
  if_neg (Nat.ne_of_gt m.size_pos)

theorem read_eq (m : Memory) (address : UInt16) : read m.cells address = .ok (m.read address) := by
  rw [read, index_eq]
  exact dif_pos (m.index_lt address)

theorem write_eq (m : Memory) (address v : UInt16) :
    write m.cells address v = .ok (m.write address v).cells := by
  rw [write, index_eq]
  exact dif_pos (m.index_lt address)

theorem copy_eq {k : Nat} {ws : List UInt16} (h : k + ws.length ≤ cells.size) :
    copy cells k ws = .ok (Memory.overwrite cells k ws) := by
  induction ws generalizing cells k with
  | nil => rfl
  | cons w ws ih =>
    rw [List.length_cons] at h
    have hk : k < cells.size := by omega
    have hset : cells.setIfInBounds k w = cells.set k w hk := dif_pos hk
    have hrest : k + 1 + ws.length ≤ (cells.set k w hk).size := by
      rw [Array.size_set]
      omega
    rw [copy, store, dif_pos hk, Memory.overwrite, hset]
    exact ih hrest

/-! ### Operands -/

/-- The place of an operand, whose extension word is read only if it has one. -/
def resolve (x : Operand) (rs : Registers) (cells : Array UInt16) :
    Except Trap (Location × Registers) := do
  let w ← if x.extraWords = 0 then pure 0 else read cells (rs.pc + 1)
  return (x.place rs rs.sp w, rs.past x)

def readAt (l : Location) (rs : Registers) (cells : Array UInt16) : Except Trap UInt16 :=
  match l with
  | .register r => .ok (rs.get r)
  | .cell address => read cells address
  | .sp => .ok rs.sp
  | .pc => .ok rs.pc
  | .overflow => .ok rs.flagWord
  | .value v => .ok v

def writeAt (l : Location) (rs : Registers) (cells : Array UInt16) (v : UInt16) :
    Except Trap (Registers × Array UInt16) :=
  match l with
  | .register r => .ok (rs.set r v, cells)
  | .cell address => (write cells address v).map (rs, ·)
  | .sp => .ok ({ rs with sp := v }, cells)
  | .pc => .ok ({ rs with pc := v }, cells)
  | .overflow => .ok ({ rs with o := v != 0 }, cells)
  | .value _ => .ok (rs, cells)

def apply (o : Outcome) (l : Location) (rs : Registers) (cells : Array UInt16) :
    Except Trap (Registers × Array UInt16) :=
  match o with
  | .write v (some flag) => writeAt l { rs with o := flag } cells v
  | .write v none => writeAt l rs cells v
  | .skip => .ok (rs.advance, cells)
  | .nothing => .ok (rs, cells)

theorem resolve_eq (x : Operand) (rs : Registers) (m : Memory) :
    resolve x rs m.cells = .ok (x.resolve rs m) := by
  rw [resolve, read_eq, Operand.resolve_eq]
  cases x <;> rfl

theorem readAt_eq (l : Location) (rs : Registers) (m : Memory) :
    readAt l rs m.cells = .ok (l.read rs m) := by
  cases l with
  | cell address => exact read_eq m address
  | _ => rfl

theorem writeAt_eq (l : Location) (rs : Registers) (m : Memory) (v : UInt16) :
    writeAt l rs m.cells v = .ok ((l.write rs m v).1, (l.write rs m v).2.cells) := by
  cases l with
  | cell address =>
    rw [writeAt, write_eq]
    rfl
  | _ => rfl

theorem apply_eq (o : Outcome) (l : Location) (rs : Registers) (m : Memory) :
    apply o l rs m.cells =
      .ok ((Machine.apply o l rs m).1, (Machine.apply o l rs m).2.cells) := by
  cases o with
  | write v flag => cases flag <;> exact writeAt_eq l _ m v
  | _ => rfl

/-! ### Ticks -/

/-- Executes one instruction in place. -/
def tick (s : Storage) : Except Trap (Except Fault Tick × Storage) := do
  let word ← read s.cells s.registers.pc
  match ← decode word with
  | .error e => return (.error (.decode e), s)
  | .ok i =>
    let (la, rs) ← resolve i.a s.registers s.cells
    let a ← readAt la rs s.cells
    let (lb, rs) ← resolve i.b rs s.cells
    let b ← readAt lb rs s.cells
    let (rs, cells) ← apply (← outcome i.opcode a b) la rs s.cells
    return (.ok { address := s.registers.pc, word, instruction := i, a, b },
      { registers := rs.advance, cells, cycles := s.cycles + 1, last := some i })

theorem tick_eq {m m' : Machine} {t : Tick} (h : m.tick = .ok (t, m')) :
    tick m.storage = .ok (.ok t, m'.storage) := by
  obtain ⟨i, hi⟩ := Instruction.exists_decode (m.memory.read m.registers.pc)
  simp only [Machine.tick, hi, Except.ok.injEq, Prod.mk.injEq] at h
  obtain ⟨rfl, rfl⟩ := h
  simp only [tick, Machine.storage, bind, Except.bind, read_eq, decode_eq, hi, resolve_eq,
    readAt_eq, outcome_eq, apply_eq]
  rfl

end Checked

end Dcpu16
