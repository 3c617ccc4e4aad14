import Dcpu16.Json.Fields
import Dcpu16.Json.Reading
import Dcpu16.Json.Writing
import Dcpu16.Machine.State

/-! Stored machine states.  A snapshot is a JSON record of the registers, the memory cells and the
number of cycles; the latest instruction is not part of it.  Other members are ignored. -/

namespace Dcpu16

open Json (Value)

namespace Registers

/-- The general registers in encoding order. -/
def general (rs : Registers) : List UInt16 := Register.all.map rs.get

/-- The register file with these general registers. -/
def ofGeneral? : List UInt16 → Option Registers
  | [a, b, c, x, y, z, i, j] => some { a, b, c, x, y, z, i, j }
  | _ => none

def toValue (rs : Registers) : Value :=
  .record [("general", .array (rs.general.map fun w => .nat w.toNat)), ("pc", .nat rs.pc.toNat),
    ("sp", .nat rs.sp.toNat), ("o", .bool rs.o)]

def ofValue? (v : Value) : Option Registers := do
  match ← v.allFields? ["general", "pc", "sp", "o"] with
  | [general, pc, sp, o] =>
    let rs ← ofGeneral? (← general.list? Value.word?)
    return { rs with pc := ← pc.word?, sp := ← sp.word?, o := ← o.bool? }
  | _ => none

/-- The register file that a JSON text stands for. -/
def parse? (text : List Char) : Option Registers := (Value.parse? text).bind ofValue?

/-- The register file as a one-line summary in decimal. -/
def summary (rs : Registers) : String :=
  let general := ", ".intercalate (rs.general.map fun w => toString w.toNat)
  let o := if rs.o then "true" else "false"
  s!"Registers \x7b general: [{general}], pc: {rs.pc.toNat}, sp: {rs.sp.toNat}, o: {o} \x7d"

end Registers

namespace Memory

def toValue (m : Memory) : Value := .array (m.cells.toList.map fun w => .nat w.toNat)

def ofValue? (v : Value) : Option Memory := do
  match ofArray (← v.list? Value.word?).toArray with
  | .ok m => some m
  | .error _ => none

/-- The memory that a JSON text stands for. -/
def parse? (text : List Char) : Option Memory := (Value.parse? text).bind ofValue?

end Memory

namespace Machine

def toValue (m : Machine) : Value :=
  .record [("regs", m.registers.toValue), ("mem", m.memory.toValue),
    ("cycles", .nat m.cycles.toNat)]

def ofValue? (v : Value) : Option Machine := do
  match ← v.allFields? ["regs", "mem", "cycles"] with
  | [registers, memory, cycles] =>
    let registers ← Registers.ofValue? registers
    let memory ← Memory.ofValue? memory
    return { registers, memory, cycles := .ofNat (← cycles.nat? Json.maxWord64) }
  | _ => none

/-- The machine that a JSON text stands for. -/
def parse? (text : List Char) : Option Machine := (Value.parse? text).bind ofValue?

/-- The machine as a one-line summary. -/
def summary (m : Machine) : String :=
  s!"Cpu \x7b cycles: {m.cycles.toNat}, regs: {m.registers.summary}, mem: {m.memory.summary} \x7d"

end Machine

end Dcpu16
