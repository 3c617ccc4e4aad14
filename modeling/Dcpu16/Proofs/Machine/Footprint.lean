import Dcpu16.Proofs.Machine.Running

/-! A small memory does for a program that stays inside it.  The footprint of a tick is made of the
addresses that it uses; while footprints stay below the size of a small memory, a machine that has
the small memory and one that has a full memory run in step. -/

namespace Dcpu16

/-- The address of a place in memory. -/
def Location.address? : Location → Option UInt16
  | cell address => some address
  | _ => none

namespace Machine

/-- The addresses of the words that the instruction at the program counter is made of. -/
def wordAddresses (m : Machine) (i : Instruction) : List UInt16 :=
  (List.range i.size).map (m.registers.pc + .ofNat ·)

/-- The addresses that the next tick uses: it fetches the words of its instruction, reads the cells
that the operands denote, and writes no cell but that of operand A. -/
def footprint (m : Machine) : List UInt16 :=
  match Instruction.decode (m.memory.read m.registers.pc) with
  | .ok i => m.wordAddresses i ++ (m.placeA i).address?.toList ++ (m.placeB i).address?.toList
  | .error _ => [m.registers.pc]

/-- The machine `small` has the registers and the count of `full`, and the first of its cells. -/
structure Mirrors (small full : Machine) : Prop where
  registers : small.registers = full.registers
  cycles : small.cycles = full.cycles
  cells (a : UInt16) : a.toNat < small.memory.size → small.memory.read a = full.memory.read a

end Machine

@[simp] theorem Memory.size_full : full.size = fullSize := Array.size_replicate

@[simp] theorem Memory.read_full (a : UInt16) : full.read a = 0 := Array.getElem_replicate ..

theorem Memory.index_eq {m : Memory} {a : UInt16} (h : a.toNat < m.size) : m.index a = a.toNat :=
  Nat.mod_eq_of_lt h

theorem Location.read_eq {l : Location} {m m' : Memory} (rs : Registers)
    (h : ∀ a, l.address? = some a → m.read a = m'.read a) : l.read rs m = l.read rs m' := by
  cases l with
  | cell a => exact h a rfl
  | _ => rfl

/-- Only an operand with an extension word depends on it. -/
theorem Operand.place_eq {x : Operand} {v w : UInt16} (rs : Registers) (sp : UInt16)
    (h : x.extraWords = 1 → v = w) : x.place rs sp v = x.place rs sp w := by
  cases x with
  | offset | nextCell | next => rw [h rfl]
  | _ => rfl

namespace Machine

variable {small full : Machine} {i : Instruction}

theorem mem_wordAddresses {m : Machine} {k : Nat} (h : k < i.size) :
    m.registers.pc + .ofNat k ∈ m.wordAddresses i :=
  List.mem_map_of_mem (List.mem_range.mpr h)

theorem footprint_eq {m : Machine} (h : Instruction.decode (m.memory.read m.registers.pc) = .ok i) :
    m.footprint =
      m.wordAddresses i ++ (m.placeA i).address?.toList ++ (m.placeB i).address?.toList := by
  rw [footprint, h]

theorem pc_mem_footprint (m : Machine) : m.registers.pc ∈ m.footprint := by
  obtain ⟨i, hi⟩ := Instruction.exists_decode (m.memory.read m.registers.pc)
  have hpc := mem_wordAddresses (m := m) i.size_pos
  rw [footprint_eq hi, List.append_assoc, List.mem_append]
  exact .inl (by simpa using hpc)

namespace Mirrors

/-! ### One tick -/

theorem placeA_eq (h : small.Mirrors full)
    (hwords : ∀ a ∈ full.wordAddresses i, a.toNat < small.memory.size) :
    small.placeA i = full.placeA i := by
  unfold placeA
  rw [h.registers]
  refine Operand.place_eq _ _ fun hextra => h.cells _ (hwords _ ?_)
  exact mem_wordAddresses (k := 1) (by rw [Instruction.size, hextra]; omega)

theorem placeB_eq (h : small.Mirrors full)
    (hwords : ∀ a ∈ full.wordAddresses i, a.toNat < small.memory.size) :
    small.placeB i = full.placeB i := by
  unfold placeB
  rw [h.registers]
  refine Operand.place_eq _ _ fun hextra => h.cells _ (hwords _ ?_)
  rw [UInt16.add_assoc, ← UInt16.ofNat_one, ← UInt16.ofNat_add]
  exact mem_wordAddresses (by rw [Instruction.size, hextra]; omega)

/-- Both machines fetch the same instruction, find its operands at the same places, and read the
same words there. -/
theorem tick (h : small.Mirrors full) (hfull : full.memory.size = Memory.fullSize)
    (hwithin : ∀ a ∈ full.footprint, a.toNat < small.memory.size) :
    ∃ t full' small', full.tick = .ok (t, full') ∧ small.tick = .ok (t, small') ∧
      small'.Mirrors full' ∧ small'.memory.size = small.memory.size ∧
      full'.memory.size = Memory.fullSize ∧
      ∀ a : UInt16, small.memory.size ≤ a.toNat → full'.memory.read a = full.memory.read a := by
  obtain ⟨i, hi⟩ := Instruction.exists_decode (full.memory.read full.registers.pc)
  have hpc : small.memory.read full.registers.pc = full.memory.read full.registers.pc :=
    h.cells _ (hwithin _ full.pc_mem_footprint)
  have hi' : Instruction.decode (small.memory.read small.registers.pc) = .ok i := by
    rw [h.registers, hpc, hi]
  rw [footprint_eq hi] at hwithin
  simp only [List.mem_append, or_imp, forall_and, Option.mem_toList] at hwithin
  obtain ⟨⟨hwords, hcellA⟩, hcellB⟩ := hwithin
  have hplaceA := h.placeA_eq hwords
  have hplaceB := h.placeB_eq hwords
  have hvalueA : small.valueA i = full.valueA i := by
    rw [valueA, valueA, hplaceA, h.registers]
    exact Location.read_eq _ fun a ha => h.cells a (hcellA a ha)
  have hvalueB : small.valueB i = full.valueB i := by
    rw [valueB, valueB, hplaceB, h.registers]
    exact Location.read_eq _ fun a ha => h.cells a (hcellB a ha)
  have houtcome : small.outcome i = full.outcome i := by rw [outcome, outcome, hvalueA, hvalueB]
  have hstore : small.store? i = full.store? i := by rw [store?, store?, houtcome, hplaceA]
  have hsmall := small.after_next i
  have hfull' := full.after_next i
  have hle : small.memory.size ≤ full.memory.size := hfull ▸ small.memory.size_le
  -- What is stored at a cell is stored below the size of the small memory.
  have htarget {a v : UInt16} (hs : full.store? i = some (.cell a, v)) :
      a.toNat < small.memory.size := by
    obtain ⟨_, -, hpair⟩ := Option.map_eq_some_iff.mp hs
    exact hcellA a (by rw [(Prod.mk.inj hpair).1]; rfl)
  refine ⟨_, full.next i, small.next i, tick_eq hi, ?_, ⟨?_, ?_, fun a ha => ?_⟩, hsmall.size,
    hfull'.size.trans hfull, fun a ha => ?_⟩
  · rw [tick_eq hi', h.registers, hpc, hvalueA, hvalueB]
  · refine Registers.ext_get (fun r => ?_) ?_ ?_ ?_
    · rw [hsmall.register, hfull'.register, hstore, h.registers]
    · rw [hsmall.pc, hfull'.pc, hstore, houtcome, h.registers]
    · rw [hsmall.sp, hfull'.sp, hstore, h.registers]
    · rw [hsmall.flag, hfull'.flag, hstore, houtcome, h.registers]
  · rw [hsmall.cycles, hfull'.cycles, h.cycles]
  · have ha : a.toNat < small.memory.size := hsmall.size ▸ ha
    rw [hsmall.cell, hfull'.cell, hstore, h.cells a ha]
    cases hs : full.store? i with
    | none => rfl
    | some stored =>
      obtain ⟨l, v⟩ := stored
      cases l with
      | cell target =>
        have hlt := htarget hs
        simp only [Memory.index_eq ha, Memory.index_eq hlt,
          Memory.index_eq (Nat.lt_of_lt_of_le ha hle), Memory.index_eq (Nat.lt_of_lt_of_le hlt hle)]
      | _ => rfl
  · rw [hfull'.cell]
    have hindex (b : UInt16) : full.memory.index b = b.toNat :=
      Memory.index_eq (hfull ▸ b.toNat_lt)
    cases hs : full.store? i with
    | none => rfl
    | some stored =>
      obtain ⟨l, v⟩ := stored
      cases l with
      | cell target =>
        have hlt := htarget hs
        simp only [hindex, show a.toNat ≠ target.toNat by omega, if_false]
      | _ => rfl

end Mirrors

/-! ### Runs -/

/-- While the footprints of a full machine stay below `small.memory.size`, the machine with that
memory has the same ticks and the same state after them, and the cells of the full machine at this
size and above keep what they hold. -/
theorem ticks_of_footprints {n : Nat} (hfull : full.memory.size = Memory.fullSize)
    (hmirrors : small.Mirrors full)
    (hwithin : ∀ k < n, ∀ m, run k full = .ok m → ∀ a ∈ m.footprint,
      a.toNat < small.memory.size) :
    ∃ ts full' small', full.ticks n = .ok (ts, full') ∧ small.ticks n = .ok (ts, small') ∧
      small'.Mirrors full' ∧ small'.memory.size = small.memory.size ∧
      full'.memory.size = Memory.fullSize ∧
      ∀ a : UInt16, small.memory.size ≤ a.toNat → full'.memory.read a = full.memory.read a := by
  induction n generalizing full small with
  | zero => exact ⟨[], full, small, rfl, rfl, hmirrors, rfl, hfull, fun _ _ => rfl⟩
  | succ n ih =>
    obtain ⟨t, full₁, small₁, htick, htick', hmirrors₁, hsize, hfull₁, hkept⟩ :=
      hmirrors.tick hfull (hwithin 0 (Nat.succ_pos n) full rfl)
    obtain ⟨ts, full₂, small₂, hts, hts', hmirrors₂, hsize₂, hfull₂, hkept₂⟩ :=
      ih hfull₁ hmirrors₁ fun k hk m hrun a ha => by
        rw [hsize]
        exact hwithin (k + 1) (Nat.succ_lt_succ hk) m (by rw [run_succ htick, hrun]) a ha
    refine ⟨t :: ts, full₂, small₂, ?_, ?_, hmirrors₂, hsize₂.trans hsize, hfull₂, fun a ha => ?_⟩
    · rw [ticks_succ htick, hts]
      rfl
    · rw [ticks_succ htick', hts']
      rfl
    · rw [hkept₂ a (hsize ▸ ha), hkept a ha]

/-- With `SET [3], 5` in its first two cells, a full machine and one of four cells store the same
word at the same address. -/
theorem ticks_of_footprints_store :
    ∃ (full small : Machine) (ts : List Tick) (full' small' : Machine),
      full.memory.size = Memory.fullSize ∧ small.memory.size = 4 ∧ small.Mirrors full ∧
      full.ticks 1 = .ok (ts, full') ∧ small.ticks 1 = .ok (ts, small') ∧
      full'.memory.read 3 = 5 ∧ small'.memory.read 3 = 5 := by
  let full : Machine := { memory := (Memory.full.write 0 0x95E1).write 1 3 }
  let small : Machine := { memory := ⟨#[0x95E1, 3, 0, 0], by decide, by decide⟩ }
  have hsize : full.memory.size = Memory.fullSize := by simp [full]
  have hread (a : UInt16) :
      full.memory.read a = if a = 1 then 3 else if a = 0 then 0x95E1 else 0 := by
    have hindex (b : UInt16) : Memory.full.index b = b.toNat :=
      Memory.index_eq (by simpa [Memory.fullSize] using b.toNat_lt)
    simp [full, Memory.read_write, hindex, ← UInt16.toNat_inj]
  have hmirrors : small.Mirrors full := by
    refine ⟨rfl, rfl, fun a ha => ?_⟩
    have hcells : ∀ k < 4, small.memory.read (.ofNat k) =
        if UInt16.ofNat k = 1 then 3 else if UInt16.ofNat k = 0 then 0x95E1 else 0 := by decide
    have ha := hcells a.toNat ha
    rwa [UInt16.ofNat_toNat, ← hread] at ha
  have hdecode : Instruction.decode (full.memory.read full.registers.pc) =
      .ok ⟨.set, .nextCell, .literal 5⟩ := by
    show Instruction.decode (full.memory.read 0) = _
    rw [hread]
    rfl
  have hfootprint : full.footprint = [0, 1, 3] := by
    rw [footprint_eq hdecode]
    simp only [placeA, Operand.place, hread]
    rfl
  obtain ⟨ts, full', small', hts, hts', hmirrors', hsize', -⟩ :=
    ticks_of_footprints (n := 1) hsize hmirrors fun k hk m hrun a ha => by
      obtain rfl : k = 0 := by omega
      obtain rfl := Except.ok.inj hrun
      rw [hfootprint] at ha
      simp only [List.mem_cons, List.not_mem_nil, or_false] at ha
      rcases ha with rfl | rfl | rfl <;> decide
  have hstored : small'.memory.read 3 = 5 := by
    have hsmall : (small.ticks 1).toOption.map (·.2.memory.read 3) = some 5 := by decide +kernel
    rw [hts'] at hsmall
    exact Option.some.inj hsmall
  exact ⟨full, small, ts, full', small', hsize, rfl, hmirrors, hts, hts',
    (hmirrors'.cells 3 (by rw [hsize']; decide)).symm.trans hstored, hstored⟩

end Machine

end Dcpu16
