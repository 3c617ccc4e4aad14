import Dcpu16.Proofs.Machine.ClosedForm

/-! Runs of any number of ticks.  No machine ever fails to tick, so a run of `n` ticks is there for
every `n`; and the instruction that a machine remembers plays no part in what it does. -/

namespace Dcpu16.Machine

/-- The next `n` ticks, and the machine after them. -/
def ticks : Nat → Machine → Except Fault (List Tick × Machine)
  | 0, m => .ok ([], m)
  | n + 1, m =>
    match m.tick with
    | .error e => .error e
    | .ok (t, m) => (ticks n m).map fun (ts, m) => (t :: ts, m)

variable {m m' : Machine} {t : Tick}

theorem exists_tick (m : Machine) : ∃ t m', m.tick = .ok (t, m') := by
  obtain ⟨i, hi⟩ := Instruction.exists_decode (m.memory.read m.registers.pc)
  exact ⟨_, _, tick_eq hi⟩

theorem exists_after (m : Machine) :
    ∃ t m', m.tick = .ok (t, m') ∧ m.After t.instruction m' := by
  obtain ⟨i, hi⟩ := Instruction.exists_decode (m.memory.read m.registers.pc)
  exact ⟨_, _, tick_eq hi, m.after_next i⟩

theorem ticks_succ (h : m.tick = .ok (t, m')) (n : Nat) :
    m.ticks (n + 1) = (m'.ticks n).map fun (ts, m'') => (t :: ts, m'') := by
  rw [ticks, h]

theorem run_succ (h : m.tick = .ok (t, m')) (n : Nat) : run (n + 1) m = run n m' := by
  rw [run, h]

/-- A run goes on where a shorter one ends. -/
theorem run_add (k n : Nat) (m : Machine) : run (k + n) m = (run k m).bind (run n) := by
  induction k generalizing m with
  | zero => rw [Nat.zero_add]; rfl
  | succ k ih =>
    obtain ⟨t, m', h⟩ := m.exists_tick
    rw [Nat.succ_add, run_succ h, run_succ h, ih]

theorem run_one (h : m.tick = .ok (t, m')) : run 1 m = .ok m' := run_succ h 0

theorem exists_ticks (n : Nat) (m : Machine) :
    ∃ ts m', m.ticks n = .ok (ts, m') ∧ ts.length = n ∧ run n m = .ok m' := by
  induction n generalizing m with
  | zero => exact ⟨[], m, rfl, rfl, rfl⟩
  | succ n ih =>
    obtain ⟨t, m', h⟩ := m.exists_tick
    obtain ⟨ts, m'', hts, hlength, hrun⟩ := ih m'
    exact ⟨t :: ts, m'', by rw [ticks_succ h, hts]; rfl, by rw [List.length_cons, hlength],
      by rw [run_succ h, hrun]⟩

/-- The machine after `n` ticks. -/
def afterTicks (m : Machine) : Nat → Machine
  | 0 => m
  | n + 1 =>
    match (m.afterTicks n).tick with
    | .ok (_, m') => m'
    | .error _ => m.afterTicks n

theorem exists_tick_afterTicks (m : Machine) (n : Nat) :
    ∃ t, (m.afterTicks n).tick = .ok (t, m.afterTicks (n + 1)) := by
  obtain ⟨t, m', h⟩ := (m.afterTicks n).exists_tick
  exact ⟨t, by rw [afterTicks, h]⟩

theorem run_eq_ok (m : Machine) (n : Nat) : run n m = .ok (m.afterTicks n) := by
  induction n with
  | zero => rfl
  | succ n ih =>
    obtain ⟨t, h⟩ := m.exists_tick_afterTicks n
    rw [run_add, ih]
    exact run_one h

theorem cycles_afterTicks (m : Machine) (n : Nat) :
    (m.afterTicks n).cycles = m.cycles + .ofNat n := by
  induction n with
  | zero => exact (UInt64.add_zero _).symm
  | succ n ih =>
    obtain ⟨t, h⟩ := m.exists_tick_afterTicks n
    obtain ⟨i, hi⟩ := Instruction.exists_decode
      ((m.afterTicks n).memory.read (m.afterTicks n).registers.pc)
    have hnext := congrArg Prod.snd (Except.ok.inj (h.symm.trans (tick_eq hi)))
    rw [show m.afterTicks (n + 1) = (m.afterTicks n).next i from hnext,
      ((m.afterTicks n).after_next i).cycles, ih, UInt64.ofNat_add, UInt64.add_assoc]
    rfl

/-- A tick does not look at the latest instruction, and replaces it. -/
theorem tick_last (m : Machine) (last : Option Instruction) : { m with last }.tick = m.tick := rfl

theorem ticks_last (n : Nat) (m : Machine) (last : Option Instruction) :
    { m with last }.ticks (n + 1) = m.ticks (n + 1) := by
  rw [ticks, ticks, tick_last]

end Dcpu16.Machine
