import Dcpu16.Decimal.Style
import Dcpu16.File
import Dcpu16.Json.Fields
import Dcpu16.Json.Reading
import Dcpu16.Json.Writing
import Dcpu16.Machine.Memory
import Dcpu16.Pace.Pacer

/-! Settings of a run and their JSON form.  Fields may be left out, and have defaults; members that
are no field are refused. -/

namespace Dcpu16

open Json (Value)

/-- How to run a program. -/
structure Settings where
  /-- The number of ticks a second to aim for. -/
  frequency : Float := 100.0
  /-- The number of ticks between two reports on timing; zero turns them off. -/
  reportInterval : UInt64 := 100
  /-- The number of memory cells. -/
  memorySize : UInt64 := 65536
  /-- Where the program is loaded. -/
  baseAddress : UInt16 := 0
  /-- The limit of the observer that stops after a number of cycles. -/
  maxCycles : Option UInt64 := none
  /-- The observers to attach, by name. -/
  observers : List String := []

namespace Settings

/-- Why settings cannot be used. -/
inductive Error where
  | file (e : FileError)
  /-- The text is no JSON value of this form. -/
  | parse
  /-- No tick period belongs to this frequency. -/
  | frequency (hz : Float)
  | memorySize (n : UInt64)

def Error.message : Error → String
  | file e => s!"I/O error: {e.message}"
  | parse => "parse error: not the settings of a run"
  | frequency hz =>
    s!"invalid frequency_hz: {Decimal.messageText hz} does not give a usable tick period"
  | memorySize n =>
    s!"invalid memory_size: must be between 1 and {Memory.fullSize}, got {n.toNat}"

/-- Checks that a run could start with these settings. -/
def validate (s : Settings) : Except Error Unit :=
  if (Pacer.ofFrequency? s.frequency).isNone then .error (.frequency s.frequency)
  else if s.memorySize.toNat = 0 ∨ Memory.fullSize < s.memorySize.toNat then
    .error (.memorySize s.memorySize)
  else .ok ()

/-- Adds an observer unless it is there already. -/
def addObserver (s : Settings) (name : String) : Settings :=
  if s.observers.contains name then s else { s with observers := s.observers ++ [name] }

/-- The names of the fields, in their order. -/
def fieldNames : List String :=
  ["frequency_hz", "report_interval", "memory_size", "base_address", "max_cycles", "observers"]

/-- A float; one that is not finite has no numeral. -/
def floatValue (x : Float) : Value :=
  match Decimal.Style.stored.numeral? x with
  | some n => .number n
  | none => .null

def toValue (s : Settings) : Value :=
  .record [("frequency_hz", floatValue s.frequency),
    ("report_interval", .nat s.reportInterval.toNat), ("memory_size", .nat s.memorySize.toNat),
    ("base_address", .nat s.baseAddress.toNat),
    ("max_cycles", match s.maxCycles with | some n => .nat n.toNat | none => .null),
    ("observers", .array (s.observers.map .text))]

/-- The settings as a text with one field to a line. -/
def render (s : Settings) : String := s.toValue.pretty

/-- A number of 64 bits. -/
def word64? (v : Value) : Option UInt64 := (v.nat? Json.maxWord64).map .ofNat

/-- A field, or its default if it is missing. -/
def orDefault {α : Type} (value? : Value → Option α) (default : α) : Option Value → Option α
  | some v => value? v
  | none => some default

def ofValue? (v : Value) : Option Settings := do
  let usual : Settings := {}
  match ← v.fields? fieldNames .refused with
  | [frequency, reportInterval, memorySize, baseAddress, maxCycles, observers] =>
    return {
      frequency := ← orDefault Value.float? usual.frequency frequency
      reportInterval := ← orDefault word64? usual.reportInterval reportInterval
      memorySize := ← orDefault word64? usual.memorySize memorySize
      baseAddress := ← orDefault Value.word? usual.baseAddress baseAddress
      maxCycles := ← orDefault (Value.orNull? word64?) usual.maxCycles maxCycles
      observers := ← orDefault (Value.list? Value.text?) usual.observers observers }
  | _ => none

/-- The settings that a text holds, if a run could start with them. -/
def parse (text : List Char) : Except Error Settings :=
  match (Value.parse? text).bind ofValue? with
  | none => .error .parse
  | some s =>
    match s.validate with
    | .ok () => .ok s
    | .error e => .error e

/-- The settings of a file. -/
def load {m : Type → Type} [Monad m] (files : Files m) (path : String) :
    m (Except Error Settings) := do
  match ← files.readText path with
  | .ok text => return parse text.toList
  | .error e => return .error (.file e)

end Settings

end Dcpu16
