import Dcpu16.Machine.State
import Dcpu16.Proofs.Json.Records
import Dcpu16.Proofs.Json.RoundTrip
import Dcpu16.Settings

/-! Settings that a run can start with are kept by their text.  The frequency is the only field that
may be read as another one, since the numeral of a float is read with more than one rounding; all
others come back whatever they are. -/

namespace Dcpu16.Settings

open Json (Value)

/-! ### Fields -/

/-- The float is read as itself from the text that it is written as. -/
def ReadsBack (x : Float) : Prop :=
  (Value.parse? (floatValue x).compact.toList).bind Value.float? = some x

theorem readable_floatValue (x : Float) : (floatValue x).Readable := by
  unfold floatValue Decimal.Style.numeral?
  cases Decimal.Parts.ofFloat x with
  | nan => exact .null
  | infinite => exact .null
  | finite negative significand exponent =>
    exact .number (Decimal.Style.stored.plain_ofParts negative significand exponent).readable

theorem readsBack_iff {x : Float} : ReadsBack x ↔ (floatValue x).float? = some x := by
  rw [ReadsBack, Value.compact, Value.parse?_writeOnto (readable_floatValue x), Option.bind_some]

@[simp] theorem word64?_nat (n : UInt64) : word64? (.nat n.toNat) = some n := by
  have hn : n.toNat ≤ Json.maxWord64 := Nat.le_of_lt_succ n.toNat_lt
  simp [word64?, Value.nat?_nat hn]

/-- A number that may be missing is `null` if it is. -/
def optional (n : Option UInt64) : Value := n.elim .null fun n => .nat n.toNat

theorem readable_optional (n : Option UInt64) : (optional n).Readable := by
  cases n with
  | none => exact .null
  | some n => exact Value.readable_nat _

theorem orNull?_optional (n : Option UInt64) : (optional n).orNull? word64? = some n := by
  cases n with
  | none => rfl
  | some n =>
    show (word64? (.nat n.toNat)).map some = _
    rw [word64?_nat]
    rfl

theorem list?_texts (names : List String) :
    (Value.array (names.map .text)).list? Value.text? = some names := by
  have htext (name : String) : (Value.text name).text? = some name := rfl
  exact Value.list?_array htext names

/-- The usual frequency is written as `100.0`, of which one division by ten is left to round. -/
theorem readsBack_usual : ReadsBack 100.0 := by
  have hnumeral : Decimal.Style.stored.numeral? 100.0 =
      some { whole := ['1', '0', '0'], fraction := ['0'] } := by decide +kernel
  have hscale : Json.scale (1000 : UInt64).toFloat (-1) = some 100.0 := by
    rw [Json.scale]
    decide +kernel
  rw [readsBack_iff, floatValue, hnumeral]
  show (Json.scale (1000 : UInt64).toFloat (-1)).map (fun x => x) = some 100.0
  rw [hscale]
  rfl

/-! ### Settings -/

theorem toValue_eq (s : Settings) : s.toValue =
    .record [("frequency_hz", floatValue s.frequency),
      ("report_interval", .nat s.reportInterval.toNat), ("memory_size", .nat s.memorySize.toNat),
      ("base_address", .nat s.baseAddress.toNat), ("max_cycles", optional s.maxCycles),
      ("observers", .array (s.observers.map .text))] := by
  cases h : s.maxCycles <;> simp [toValue, optional, h]

theorem readable_toValue (s : Settings) : s.toValue.Readable := by
  rw [toValue_eq]
  refine Value.readable_record fun field hfield => ?_
  simp only [List.mem_cons, List.not_mem_nil, or_false] at hfield
  rcases hfield with rfl | rfl | rfl | rfl | rfl | rfl
  · exact readable_floatValue _
  · exact Value.readable_nat _
  · exact Value.readable_nat _
  · exact Value.readable_nat _
  · exact readable_optional _
  · refine .array fun v hv => ?_
    obtain ⟨name, -, rfl⟩ := List.mem_map.mp hv
    exact .string _

/-- Only the frequency depends on how a numeral is read. -/
theorem ofValue?_toValue (s : Settings) : ofValue? s.toValue =
    (floatValue s.frequency).float?.map fun x => { s with frequency := x } := by
  have hfields : s.toValue.fields? fieldNames .refused =
      some [some (floatValue s.frequency), some (.nat s.reportInterval.toNat),
        some (.nat s.memorySize.toNat), some (.nat s.baseAddress.toNat),
        some (optional s.maxCycles), some (.array (s.observers.map .text))] := by
    rw [toValue_eq]
    exact Value.fields?_record (by simp) .refused
  rw [ofValue?, hfields]
  simp only [Option.bind_eq_bind, Option.bind_some, orDefault, word64?_nat, Value.word?_nat,
    orNull?_optional, list?_texts]
  cases (floatValue s.frequency).float? with
  | none => rfl
  | some x => rfl

theorem parse_eq_ok {text : List Char} {s : Settings} :
    parse text = .ok s ↔ (Value.parse? text).bind ofValue? = some s ∧ s.validate = .ok () := by
  unfold parse
  cases (Value.parse? text).bind ofValue? with
  | none => simp
  | some s' => cases hs' : s'.validate <;> grind

/-- The checks are those of the pacer and of the machine. -/
theorem validate_eq_ok {s : Settings} : s.validate = .ok () ↔
    (∃ p, Pacer.ofFrequency? s.frequency = some p) ∧
      ∃ m, Machine.withSize s.memorySize.toNat = .ok m := by
  rw [← Option.isSome_iff_exists]
  unfold validate Machine.withSize Memory.zeroed
  cases hpacer : Pacer.ofFrequency? s.frequency with
  | none => simp
  | some p =>
    by_cases hsize : 0 < s.memorySize.toNat ∧ s.memorySize.toNat ≤ Memory.fullSize
    · have hrefused : ¬(s.memorySize.toNat = 0 ∨ Memory.fullSize < s.memorySize.toNat) := by omega
      simp [hsize, hrefused]
    · have hrefused : s.memorySize.toNat = 0 ∨ Memory.fullSize < s.memorySize.toNat := by omega
      simp [hsize, hrefused]

/-- Settings are read from their own text if and only if a run can start with them and their
frequency is read as itself.  Settings that are read from any text are settings that a run can start
with. -/
theorem parse_settings :
    (∀ s : Settings, parse s.render.toList = .ok s ↔
      s.validate = .ok () ∧ ReadsBack s.frequency) ∧
    ∀ text s, parse text = .ok s → s.validate = .ok () ∧
      (∃ p, Pacer.ofFrequency? s.frequency = some p) ∧
      (∃ m, Machine.withSize s.memorySize.toNat = .ok m) ∧
      (ReadsBack s.frequency → parse s.render.toList = .ok s) := by
  have hrender (s : Settings) : parse s.render.toList = .ok s ↔
      s.validate = .ok () ∧ ReadsBack s.frequency := by
    rw [parse_eq_ok, render, Value.pretty, Value.parse?_writeOnto s.readable_toValue,
      Option.bind_some, ofValue?_toValue, readsBack_iff, and_comm]
    refine and_congr_right fun _ => ?_
    constructor
    · intro h
      obtain ⟨x, hx, hs⟩ := Option.map_eq_some_iff.mp h
      have hfrequency : x = s.frequency := congrArg Settings.frequency hs
      rw [hx, hfrequency]
    · intro h
      rw [h]
      rfl
  refine ⟨hrender, fun text s hs => ?_⟩
  have hvalid := (parse_eq_ok.mp hs).2
  obtain ⟨hpacer, hmachine⟩ := validate_eq_ok.mp hvalid
  exact ⟨hvalid, hpacer, hmachine, fun h => (hrender s).mpr ⟨hvalid, h⟩⟩

/-- Settings at the limits of their fields, with a repeated observer and one with a strange name. -/
theorem parse_settings_limits :
    let s : Settings := {
      reportInterval := 0xFFFFFFFFFFFFFFFF, memorySize := 1, baseAddress := 0xFFFF
      maxCycles := some 0xFFFFFFFFFFFFFFFF, observers := ["trace", "trace", "\x00\t\"\\é😀"] }
    parse s.render.toList = .ok s ∧ ∃ m, Machine.withSize 1 = .ok m := by
  intro s
  have hpacer : (Pacer.ofFrequency? 100.0).isSome = true := by decide +kernel
  have hvalid : s.validate = .ok () :=
    validate_eq_ok.mpr ⟨Option.isSome_iff_exists.mp hpacer, _, rfl⟩
  have hparse := (parse_settings.1 s).mpr ⟨hvalid, readsBack_usual⟩
  exact ⟨hparse, (parse_settings.2 _ s hparse).2.2.1⟩

end Dcpu16.Settings
