/-! Memory: between one and 65536 words.  An address is a word, so it wraps at 65536, and a smaller
memory wraps it once more at its own size. -/

namespace Dcpu16

/-- The number of words that an address can tell apart. -/
def Memory.fullSize : Nat := 65536

/-- A memory of one to 65536 cells. -/
structure Memory where
  cells : Array UInt16
  size_pos : 0 < cells.size
  size_le : cells.size ≤ Memory.fullSize

/-- Why a memory cannot be made or loaded. -/
inductive MemoryError where
  /-- No memory has this number of cells. -/
  | invalidSize (size : Nat)
  /-- A program of `size` words starts where only `available` cells are left. -/
  | programTooLarge (size available : Nat)
  deriving DecidableEq, Repr

def MemoryError.message : MemoryError → String
  | invalidSize n => s!"memory size {n} must be between 1 and {Memory.fullSize}"
  | programTooLarge size available =>
    s!"program size {size} exceeds available space {available}"

namespace Memory

/-- The number of cells. -/
def size (m : Memory) : Nat := m.cells.size

/-- A memory that holds the given cells. -/
def ofArray (cells : Array UInt16) : Except MemoryError Memory :=
  if h : 0 < cells.size ∧ cells.size ≤ fullSize then .ok ⟨cells, h.1, h.2⟩
  else .error (.invalidSize cells.size)

/-- A memory of `n` cells that hold zero. -/
def zeroed (n : Nat) : Except MemoryError Memory :=
  if h : 0 < n ∧ n ≤ fullSize then
    .ok ⟨Array.replicate n 0, by simpa using h.1, by simpa using h.2⟩
  else .error (.invalidSize n)

/-- A memory of 65536 cells that hold zero. -/
def full : Memory := ⟨Array.replicate fullSize 0, by simp [fullSize], by simp⟩

/-- The cell that an address selects. -/
def index (m : Memory) (address : UInt16) : Nat := address.toNat % m.cells.size

theorem index_lt (m : Memory) (address : UInt16) : m.index address < m.cells.size :=
  Nat.mod_lt _ m.size_pos

def read (m : Memory) (address : UInt16) : UInt16 :=
  have h := m.index_lt address
  m.cells[m.index address]

def write (m : Memory) (address v : UInt16) : Memory where
  cells := m.cells.set (m.index address) v (m.index_lt address)
  size_pos := by simpa using m.size_pos
  size_le := by simpa using m.size_le

/-- `cells` with `ws` written over them from position `start` on. -/
def overwrite (cells : Array UInt16) (start : Nat) : List UInt16 → Array UInt16
  | [] => cells
  | w :: ws => overwrite (cells.setIfInBounds start w) (start + 1) ws

@[simp] theorem size_overwrite (cells : Array UInt16) (start : Nat) (ws : List UInt16) :
    (overwrite cells start ws).size = cells.size := by
  induction ws generalizing cells start with
  | nil => rfl
  | cons w ws ih => simp [overwrite, ih]

/-- Writes a program from `start` on; a program never wraps around the end of memory. -/
def load (m : Memory) (start : UInt16) (program : List UInt16) : Except MemoryError Memory :=
  if start.toNat < m.size ∧ program.length ≤ m.size - start.toNat then
    .ok ⟨overwrite m.cells start.toNat program, by simpa using m.size_pos,
      by simpa using m.size_le⟩
  else .error (.programTooLarge program.length (m.size - start.toNat))

/-- The number of cells that do not hold zero. -/
def nonZero (m : Memory) : Nat := m.cells.foldl (fun n w => if w == 0 then n else n + 1) 0

/-- A one-line summary of a memory. -/
def summary (m : Memory) : String :=
  s!"Memory \x7b non_zero_cells: {m.nonZero}, total_cells: {m.size} \x7d"

@[simp] theorem size_write (m : Memory) (address v : UInt16) : (m.write address v).size = m.size :=
  by simp [size, write]

@[simp] theorem index_write (m : Memory) (address v other : UInt16) :
    (m.write address v).index other = m.index other := by simp [index, write]

theorem read_write (m : Memory) (address v other : UInt16) :
    (m.write address v).read other =
      if m.index other = m.index address then v else m.read other := by
  unfold read
  simp only [index_write]
  simp only [write, Array.getElem_set, eq_comm]

end Memory

end Dcpu16
