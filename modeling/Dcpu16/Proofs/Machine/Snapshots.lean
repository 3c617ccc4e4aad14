import Dcpu16.Proofs.Json.Records
import Dcpu16.Proofs.Json.RoundTrip
import Dcpu16.Proofs.Machine.Running
import Dcpu16.Snapshot

/-! Snapshots keep a machine.  A machine that is written in either layout and read again has the
same registers, cells and count of ticks, and runs as before; it only does not know what it ran
last.  What is read from any other text is a machine as well, with a memory of a size that there
is. -/

namespace Dcpu16

open Json (Value)

/-! ### Values that are written -/

theorem Json.Value.readable_words (ws : List UInt16) :
    (Value.array (ws.map fun w => .nat w.toNat)).Readable := by
  refine .array fun v hv => ?_
  obtain ⟨w, -, rfl⟩ := List.mem_map.mp hv
  exact readable_nat _

theorem Registers.readable_toValue (rs : Registers) : rs.toValue.Readable := by
  refine Value.readable_record fun m hm => ?_
  simp only [List.mem_cons, List.not_mem_nil, or_false] at hm
  rcases hm with rfl | rfl | rfl | rfl
  · exact Value.readable_words _
  · exact Value.readable_nat _
  · exact Value.readable_nat _
  · exact .bool _

theorem Machine.readable_toValue (m : Machine) : m.toValue.Readable := by
  refine Value.readable_record fun field hfield => ?_
  simp only [List.mem_cons, List.not_mem_nil, or_false] at hfield
  rcases hfield with rfl | rfl | rfl
  · exact m.registers.readable_toValue
  · exact Value.readable_words _
  · exact Value.readable_nat _

/-! ### Values that are read -/

theorem Registers.ofValue?_toValue (rs : Registers) : ofValue? rs.toValue = some rs := by
  have hfields : rs.toValue.allFields? ["general", "pc", "sp", "o"] =
      some [.array (rs.general.map fun w => .nat w.toNat), .nat rs.pc.toNat, .nat rs.sp.toNat,
        .bool rs.o] := Value.allFields?_record (by simp)
  have hgeneral : (Value.array (rs.general.map fun w => .nat w.toNat)).list? Value.word? =
      some rs.general := Value.list?_array Value.word?_nat _
  rw [ofValue?, hfields]
  simp only [Option.bind_eq_bind, Option.bind_some, hgeneral, Value.word?_nat]
  rfl

theorem Memory.ofValue?_toValue (m : Memory) : ofValue? m.toValue = some m := by
  have hcells : m.toValue.list? Value.word? = some m.cells.toList :=
    Value.list?_array Value.word?_nat _
  have harray : ofArray m.cells = .ok m := dif_pos ⟨m.size_pos, m.size_le⟩
  rw [ofValue?, hcells, Option.bind_eq_bind, Option.bind_some, Array.toArray_toList, harray]

theorem Machine.ofValue?_toValue (m : Machine) :
    ofValue? m.toValue = some { m with last := none } := by
  have hfields : m.toValue.allFields? ["regs", "mem", "cycles"] =
      some [m.registers.toValue, m.memory.toValue, .nat m.cycles.toNat] :=
    Value.allFields?_record (by simp)
  have hcycles : m.cycles.toNat ≤ Json.maxWord64 := Nat.le_of_lt_succ m.cycles.toNat_lt
  rw [ofValue?, hfields]
  simp only [Option.bind_eq_bind, Option.bind_some, Registers.ofValue?_toValue,
    Memory.ofValue?_toValue, Value.nat?_nat hcycles, UInt64.ofNat_toNat]
  rfl

/-- A memory is read from a list of its cells, and from no list of another length than memories
have. -/
theorem Memory.ofValue?_eq_some {v : Value} {m : Memory} (h : ofValue? v = some m) :
    ∃ cells, v = .array cells ∧ cells.length = m.size := by
  obtain ⟨ws, hws, h⟩ := Option.bind_eq_some_iff.mp h
  have hsize : ws.length = m.size := by
    unfold ofArray at h
    split at h
    · next m' hm' =>
      obtain rfl := Option.some.inj h
      split at hm'
      · obtain rfl := Except.ok.inj hm'
        simp [size]
      · cases hm'
    · cases h
  unfold Json.Value.list? at hws
  split at hws
  · next cells => exact ⟨cells, rfl, (Value.length_eq_of_mapM hws).trans hsize⟩
  · cases hws

namespace Machine

theorem ofValue?_eq_some {v : Value} {m : Machine} (h : ofValue? v = some m) :
    ∃ registers cells cycles,
      v.allFields? ["regs", "mem", "cycles"] = some [registers, .array cells, cycles] ∧
        cells.length = m.memory.size := by
  obtain ⟨values, hvalues, h⟩ := Option.bind_eq_some_iff.mp h
  split at h
  · next registers memory cycles =>
    obtain ⟨rs, -, h⟩ := Option.bind_eq_some_iff.mp h
    obtain ⟨memory', hmemory, h⟩ := Option.bind_eq_some_iff.mp h
    obtain ⟨count, -, h⟩ := Option.bind_eq_some_iff.mp h
    obtain rfl := Option.some.inj h
    obtain ⟨cells, rfl, hsize⟩ := Memory.ofValue?_eq_some hmemory
    exact ⟨registers, cells, cycles, hvalues, hsize⟩
  · cases h

/-- A machine written in either layout is read as a machine with the same registers, memory and
count, which has the same ticks and ends in the same state after any number of them.  Any text is
read as no machine, or as one whose memory is the text's own list of at least one and at most 65536
cells. -/
theorem parse_snapshot (m : Machine) :
    (∃ restored, parse? m.toValue.compact.toList = some restored ∧
      parse? m.toValue.pretty.toList = some restored ∧
      restored.registers = m.registers ∧ restored.memory = m.memory ∧
      restored.cycles = m.cycles ∧ restored.last = none ∧
      ∀ n, ∃ ts m₁ m₂, m.ticks n = .ok (ts, m₁) ∧ restored.ticks n = .ok (ts, m₂) ∧
        ts.length = n ∧ m₂.registers = m₁.registers ∧ m₂.memory = m₁.memory ∧
        m₂.cycles = m₁.cycles) ∧
    ∀ text, parse? text = none ∨ ∃ m' v registers cells cycles, parse? text = some m' ∧
      Value.parse? text = some v ∧
      v.allFields? ["regs", "mem", "cycles"] = some [registers, .array cells, cycles] ∧
      cells.length = m'.memory.size ∧ 1 ≤ cells.length ∧ cells.length ≤ Memory.fullSize := by
  have hparse (layout : Json.Layout) :
      parse? (m.toValue.writeOnto layout 0 "").toList = some { m with last := none } := by
    rw [parse?, Value.parse?_writeOnto m.readable_toValue, Option.bind_some, ofValue?_toValue]
  refine ⟨⟨_, hparse .compact, hparse .pretty, rfl, rfl, rfl, rfl, fun n => ?_⟩, fun text => ?_⟩
  · obtain ⟨ts, m', hticks, hlength, -⟩ := exists_ticks n m
    cases n with
    | zero =>
      obtain ⟨rfl, rfl⟩ := Prod.mk.inj (Except.ok.inj hticks)
      exact ⟨_, _, _, hticks, rfl, hlength, rfl, rfl, rfl⟩
    | succ n =>
      have hrestored := (ticks_last n m none).trans hticks
      exact ⟨ts, m', m', hticks, hrestored, hlength, rfl, rfl, rfl⟩
  · cases hm : parse? text with
    | none => exact .inl rfl
    | some m' =>
      obtain ⟨v, hv, hvalue⟩ := Option.bind_eq_some_iff.mp hm
      obtain ⟨registers, cells, cycles, hfields, hsize⟩ := ofValue?_eq_some hvalue
      exact .inr ⟨m', v, registers, cells, cycles, rfl, hv, hfields, hsize,
        hsize ▸ m'.memory.size_pos, hsize ▸ m'.memory.size_le⟩

end Machine

end Dcpu16
