import Dcpu16.Cli.Arguments
import Dcpu16.Decimal.Reading

/-! The commands of the program and how arguments name them. -/

namespace Dcpu16.Cli

/-- What `run` is told beside the program.  What is given here wins over the settings of a file. -/
structure RunOptions where
  settings : Option String := none
  frequency : Option Float := none
  observers : List String := []
  maxCycles : Option UInt64 := none
  base : Option UInt16 := none
  /-- Where the final state is written. -/
  dump : Option String := none

/-- What `bench` is told. -/
structure BenchOptions where
  cores : Nat := 500
  frequency : Float := 100.0
  /-- The number of cycles to run, if there is a limit. -/
  cycles : Option Nat := none
  reportInterval : Nat := 100
  program : Option String := none

/-- A command. -/
inductive Command where
  /-- Runs a program until an observer stops it. -/
  | run (program : String) (options : RunOptions)
  /-- Assembles a source text to an image. -/
  | asm (source : String) (output : Option String)
  /-- Lists an image. -/
  | disasm (image : String)
  /-- Ticks many machines at once and reports on timing. -/
  | bench (options : BenchOptions)
  /-- Names the observers. -/
  | observers
  | version

namespace Command

/-- A path, which is not empty. -/
def readPath? (s : String) : Option String := if s.isEmpty then none else some s

/-- A number of 64 bits. -/
def readCount? (s : String) : Option Nat :=
  (Text.readUnsigned? 10 s.toList).filter (· < 0x10000000000000000)

/-- An address, in hexadecimal after `0x` and in decimal otherwise. -/
def readAddress? (s : String) : Option UInt16 :=
  let n :=
    match s.toList with
    | '0' :: 'x' :: cs | '0' :: 'X' :: cs => Text.readUnsigned? 16 cs
    | cs => Text.readUnsigned? 10 cs
  (n.filter (· < 0x10000)).map .ofNat

/-- A number, which need not be finite. -/
def readNumber? (s : String) : Option Float := Decimal.readFloat? s.toList

def parseRun? (args : List String) : Option Command := do
  let a ← Arguments.parse? [⟨"config", some 'c'⟩, ⟨"hz", none⟩, ⟨"observer", some 'o'⟩,
    ⟨"max-cycles", some 'm'⟩, ⟨"base", some 'b'⟩, ⟨"dump", none⟩] args
  let [program] := a.operands | none
  return .run (← readPath? program) {
    settings := ← a.single? "config" readPath?
    frequency := ← a.single? "hz" readNumber?
    observers := a.values "observer"
    maxCycles := (← a.single? "max-cycles" readCount?).map .ofNat
    base := ← a.single? "base" readAddress?
    dump := ← a.single? "dump" readPath? }

def parseAsm? (args : List String) : Option Command := do
  let a ← Arguments.parse? [⟨"output", some 'o'⟩] args
  let [source] := a.operands | none
  return .asm (← readPath? source) (← a.single? "output" readPath?)

def parseDisasm? (args : List String) : Option Command := do
  let a ← Arguments.parse? [] args
  let [image] := a.operands | none
  return .disasm (← readPath? image)

def parseBench? (args : List String) : Option Command := do
  let a ← Arguments.parse? [⟨"cores", none⟩, ⟨"hz", none⟩, ⟨"cycles", none⟩,
    ⟨"report-interval", none⟩] args
  let usual : BenchOptions := {}
  return .bench {
    cores := (← a.single? "cores" readCount?).getD usual.cores
    frequency := (← a.single? "hz" readNumber?).getD usual.frequency
    cycles := ← a.single? "cycles" readCount?
    reportInterval := (← a.single? "report-interval" readCount?).getD usual.reportInterval
    program := ←
      match a.operands with
      | [] => some none
      | [program] => (readPath? program).map some
      | _ => none }

/-- The command that a list of arguments gives, if it gives one. -/
def parse? : List String → Option Command
  | "run" :: args => parseRun? args
  | "asm" :: args => parseAsm? args
  | "disasm" :: args => parseDisasm? args
  | "bench" :: args => parseBench? args
  | ["observers"] | ["observers", "--"] => some .observers
  | arg :: _ => if arg == "--version" || arg.startsWith "-V" then some .version else none
  | [] => none

end Command

end Dcpu16.Cli
