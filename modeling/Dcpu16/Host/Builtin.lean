import Dcpu16.Disassembly.Text
import Dcpu16.Host.Observer

/-! The observers that come with the emulator: one writes a line after every tick, one stops at an
instruction that jumps to itself, and one stops after a number of cycles. -/

namespace Dcpu16

/-- An observer that comes with the emulator. -/
inductive Builtin where
  | trace
  /-- Stops once a tick leaves the program counter where it was; holds its latest value. -/
  | loopDetect (last : Option UInt16)
  | cycleLimit (limit : UInt64)
  deriving DecidableEq, Repr

namespace Builtin

/-- The limit of cycles if none is given. -/
def defaultLimit : UInt64 := 10000

def name : Builtin → String
  | trace => "trace"
  | loopDetect _ => "loop-detect"
  | cycleLimit _ => "cycle-limit"

/-- The line that describes a machine after a tick. -/
def traceLine (m : Machine) : String :=
  let cycles := Text.padRight 8 (toString m.cycles.toNat)
  let ran := Text.padRight 3 ((m.last.map fun i => i.opcode.mnemonic).getD "-")
  let next := (m.memory.textAt m.registers.pc).1
  s!"#{cycles} {ran} {m.registers.line}  next: {next}"

def onStart (o : Builtin) (m : Machine) : Callback Builtin :=
  match o with
  | trace => { observer := o, machine := m }
  | loopDetect _ => { observer := loopDetect (some m.registers.pc), machine := m }
  | cycleLimit limit =>
    { observer := o, machine := m
      ending := .reply (if limit ≤ m.cycles then .shutdown else .proceed) }

def onTick (o : Builtin) (m : Machine) : Callback Builtin :=
  match o with
  | trace => { observer := o, machine := m, log := [traceLine m] }
  | loopDetect last =>
    let pc := m.registers.pc
    let observer := loopDetect (some pc)
    if last = some pc then
      { observer, machine := m, ending := .reply .shutdown
        log := [s!"PC stuck at {Text.hex4 pc.toNat} after {m.cycles.toNat} cycles"] }
    else { observer, machine := m }
  | cycleLimit limit =>
    if limit ≤ m.cycles then
      { observer := o, machine := m, ending := .reply .shutdown
        log := [s!"reached cycle limit {limit.toNat}"] }
    else { observer := o, machine := m }

instance : Observer Builtin where
  name := name
  onStart := onStart
  onTick := onTick

end Builtin

end Dcpu16
