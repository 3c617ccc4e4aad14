import Dcpu16.Machine.Location
import Dcpu16.Machine.Outcome

/-! The machine as a whole and its tick.  A tick reads the word at the program counter, resolves and
reads operand A and then operand B, stores the outcome at A, and moves the program counter past the
words it has used.  The overflow flag is set before the store, so a store to the flag itself
wins. -/

namespace Dcpu16

/-- The state of the machine. -/
structure Machine where
  registers : Registers := {}
  memory : Memory
  /-- The number of ticks so far, modulo `2^64`. -/
  cycles : UInt64 := 0
  /-- The instruction of the latest tick, if there was one. -/
  last : Option Instruction := none

/-- Why the machine refuses a request. -/
inductive Fault where
  | decode (e : DecodeError)
  | memory (e : MemoryError)
  | unknownRegister (name : String)
  deriving DecidableEq, Repr

def Fault.message : Fault → String
  | decode e => s!"decode inconsistency: {e.message}"
  | memory e => s!"memory error: {e.message}"
  | unknownRegister name => s!"unknown register: {name}"

/-- What a tick fetched and read. -/
structure Tick where
  address : UInt16
  word : UInt16
  instruction : Instruction
  a : UInt16
  b : UInt16
  deriving DecidableEq, Repr

/-- A tick as one line of text. -/
def Tick.line (t : Tick) : String :=
  s!"{Text.hex4 t.address.toNat}: {Text.hex4 t.word.toNat} {t.instruction.opcode.title} " ++
    s!"a={Text.hex4 t.a.toNat} b={Text.hex4 t.b.toNat}"

namespace Machine

/-- A machine at rest with a full memory of zeros. -/
def start : Machine := { memory := .full }

/-- A machine at rest with `n` cells of zeros. -/
def withSize (n : Nat) : Except Fault Machine :=
  match Memory.zeroed n with
  | .ok memory => .ok { memory }
  | .error e => .error (.memory e)

/-- Writes a program into memory; if it does not fit, there is no new state. -/
def load (m : Machine) (base : UInt16) (program : List UInt16) : Except Fault Machine :=
  match m.memory.load base program with
  | .ok memory => .ok { m with memory }
  | .error e => .error (.memory e)

/-- What an outcome does to registers and memory, operand A being at `l`. -/
def apply (o : Outcome) (l : Location) (rs : Registers) (m : Memory) : Registers × Memory :=
  match o with
  | .write v (some flag) => l.write { rs with o := flag } m v
  | .write v none => l.write rs m v
  | .skip => (rs.advance, m)
  | .nothing => (rs, m)

/-- Executes one instruction. -/
def tick (m : Machine) : Except Fault (Tick × Machine) :=
  let word := m.memory.read m.registers.pc
  match Instruction.decode word with
  | .error e => .error (.decode e)
  | .ok i =>
    let (la, rs) := i.a.resolve m.registers m.memory
    let a := la.read rs m.memory
    let (lb, rs) := i.b.resolve rs m.memory
    let b := lb.read rs m.memory
    let (rs, memory) := apply (i.opcode.outcome a b) la rs m.memory
    .ok ({ address := m.registers.pc, word, instruction := i, a, b },
      { registers := rs.advance, memory, cycles := m.cycles + 1, last := some i })

/-- Executes `n` instructions one after another. -/
def run : Nat → Machine → Except Fault Machine
  | 0, m => .ok m
  | n + 1, m =>
    match m.tick with
    | .error e => .error e
    | .ok (_, m) => run n m

/-- The word in the register that a text names. -/
def getNamed (m : Machine) (name : String) : Except Fault UInt16 :=
  match NamedRegister.ofName? name.toList with
  | some r => .ok (m.registers.getNamed r)
  | none => .error (.unknownRegister name)

/-- Writes the register that a text names. -/
def setNamed (m : Machine) (name : String) (v : UInt16) : Except Fault Machine :=
  match NamedRegister.ofName? name.toList with
  | some r => .ok { m with registers := m.registers.setNamed r v }
  | none => .error (.unknownRegister name)

end Machine

end Dcpu16
