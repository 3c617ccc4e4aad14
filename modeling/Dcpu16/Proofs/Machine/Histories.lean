import Dcpu16.Proofs.Machine.Checked
import Dcpu16.Proofs.Machine.Loading
import Dcpu16.Proofs.Machine.Running
import Dcpu16.Snapshot

/-! Histories of a machine: programs are loaded, registers and cells are written, and ticks are
made, in any order.  Whatever its memory holds, a machine that a history has started from never
meets a trap, never fails to tick, and keeps the number of its cells. -/

namespace Dcpu16

/-- What is asked of a machine. -/
inductive Request where
  | load (base : UInt16) (program : List UInt16)
  | register (r : Register) (v : UInt16)
  | named (name : String) (v : UInt16)
  | pc (v : UInt16)
  | sp (v : UInt16)
  | flag (o : Bool)
  | poke (address v : UInt16)
  | tick
  deriving DecidableEq, Repr

/-- A refusal, or what a tick has read if the request was one. -/
abbrev Answer := Except Fault (Option Tick)

namespace Machine

/-- The answer to a request, and the machine after it: the same one if the request is refused. -/
def serve (m : Machine) : Request → Answer × Machine
  | .load base program =>
    match m.load base program with
    | .ok m' => (.ok none, m')
    | .error e => (.error e, m)
  | .register r v => (.ok none, { m with registers := m.registers.set r v })
  | .named name v =>
    match m.setNamed name v with
    | .ok m' => (.ok none, m')
    | .error e => (.error e, m)
  | .pc v => (.ok none, { m with registers := { m.registers with pc := v } })
  | .sp v => (.ok none, { m with registers := { m.registers with sp := v } })
  | .flag o => (.ok none, { m with registers := { m.registers with o } })
  | .poke address v => (.ok none, { m with memory := m.memory.write address v })
  | .tick =>
    match m.tick with
    | .ok (t, m') => (.ok (some t), m')
    | .error e => (.error e, m)

def serveAll (m : Machine) : List Request → List Answer × Machine
  | [] => ([], m)
  | r :: rs => ((m.serve r).1 :: ((m.serve r).2.serveAll rs).1, ((m.serve r).2.serveAll rs).2)

end Machine

namespace Checked

/-- Copies a program into storage if there is room for it behind `base`. -/
def install (s : Storage) (base : UInt16) (program : List UInt16) :
    Except Trap (Answer × Storage) :=
  let refused : Answer :=
    .error (.memory (.programTooLarge program.length (s.cells.size - base.toNat)))
  if s.cells.size ≤ base.toNat then .ok (refused, s)
  else if s.cells.size - base.toNat < program.length then .ok (refused, s)
  else (copy s.cells base.toNat program).map fun cells => (.ok none, { s with cells })

/-- Answers a request, changing the storage in place. -/
def serve (s : Storage) : Request → Except Trap (Answer × Storage)
  | .load base program => install s base program
  | .register r v => .ok (.ok none, { s with registers := s.registers.set r v })
  | .named name v =>
    match NamedRegister.ofName? name.toList with
    | some r => .ok (.ok none, { s with registers := s.registers.setNamed r v })
    | none => .ok (.error (.unknownRegister name), s)
  | .pc v => .ok (.ok none, { s with registers := { s.registers with pc := v } })
  | .sp v => .ok (.ok none, { s with registers := { s.registers with sp := v } })
  | .flag o => .ok (.ok none, { s with registers := { s.registers with o } })
  | .poke address v => (write s.cells address v).map fun cells => (.ok none, { s with cells })
  | .tick => (tick s).map fun (t, s') => (t.map some, s')

def serveAll (s : Storage) : List Request → Except Trap (List Answer × Storage)
  | [] => .ok ([], s)
  | r :: rs => do
    let (answer, s) ← serve s r
    let (answers, s) ← serveAll s rs
    return (answer :: answers, s)

end Checked

/-- The storage of a machine as it comes into being: with a full memory, with a memory of a size
that is asked for, or from a text. -/
inductive Created : Storage → Prop where
  | full : Created Machine.start.storage
  | sized {n : Nat} {m : Machine} (h : Machine.withSize n = .ok m) : Created m.storage
  | stored {text : List Char} {m : Machine} (h : Machine.parse? text = some m) : Created m.storage

theorem Created.exists_machine {s : Storage} (h : Created s) : ∃ m : Machine, s = m.storage := by
  cases h with
  | full => exact ⟨_, rfl⟩
  | sized h => exact ⟨_, rfl⟩
  | stored h => exact ⟨_, rfl⟩

namespace Checked

theorem install_eq (m : Machine) (base : UInt16) (program : List UInt16) :
    install m.storage base program =
      .ok ((m.serve (.load base program)).1, (m.serve (.load base program)).2.storage) := by
  have hcells : m.storage.cells.size = m.memory.size := rfl
  by_cases hfit : base.toNat < m.memory.size ∧ program.length ≤ m.memory.size - base.toNat
  · have hcopy : base.toNat + program.length ≤ m.storage.cells.size := by omega
    rw [install, if_neg (by omega), if_neg (by omega), copy_eq hcopy]
    simp only [Machine.serve, Machine.load, Memory.load, if_pos hfit]
    rfl
  · have hrefused : m.serve (.load base program) =
        (.error (.memory (.programTooLarge program.length (m.memory.size - base.toNat))), m) := by
      simp only [Machine.serve, Machine.load, Memory.load, if_neg hfit]
    rw [hrefused, install]
    by_cases hbase : m.storage.cells.size ≤ base.toNat
    · rw [if_pos hbase]
      rfl
    · rw [if_neg hbase, if_pos (by omega)]
      rfl

theorem serve_eq (m : Machine) (r : Request) :
    serve m.storage r = .ok ((m.serve r).1, (m.serve r).2.storage) := by
  cases r with
  | load base program => exact install_eq m base program
  | named name v =>
    simp only [serve, Machine.serve, Machine.setNamed]
    cases NamedRegister.ofName? name.toList <;> rfl
  | poke address v =>
    have hwrite := write_eq m.memory address v
    simp only [serve, Machine.storage, hwrite]
    rfl
  | tick =>
    obtain ⟨t, m', h⟩ := m.exists_tick
    simp only [serve, tick_eq h, Machine.serve, h]
    rfl
  | _ => rfl

theorem serveAll_eq (m : Machine) (requests : List Request) :
    serveAll m.storage requests =
      .ok ((m.serveAll requests).1, (m.serveAll requests).2.storage) := by
  induction requests generalizing m with
  | nil => rfl
  | cons r rs ih =>
    rw [serveAll, serve_eq]
    simp only [bind, Except.bind, ih]
    rfl

end Checked

namespace Machine

/-! ### One request -/

theorem serve_tick {m m' : Machine} {t : Tick} (h : m.tick = .ok (t, m')) :
    m.serve .tick = (.ok (some t), m') := by
  simp only [serve, h]

theorem size_serve (m : Machine) (r : Request) :
    (m.serve r).2.memory.size = m.memory.size := by
  cases r with
  | load base program =>
    simp only [serve, load]
    cases h : m.memory.load base program with
    | ok memory => exact Memory.size_load h
    | error e => rfl
  | named name v =>
    simp only [serve, setNamed]
    cases NamedRegister.ofName? name.toList <;> rfl
  | poke address v => exact m.memory.size_write address v
  | tick =>
    obtain ⟨t, m', h, hafter⟩ := m.exists_after
    rw [serve_tick h]
    exact hafter.size
  | _ => rfl

theorem cycles_serve (m : Machine) (r : Request) :
    (m.serve r).2.cycles = m.cycles + if r = .tick then 1 else 0 := by
  cases r with
  | load base program =>
    simp only [serve, load]
    cases m.memory.load base program <;> exact (UInt64.add_zero _).symm
  | named name v =>
    simp only [serve, setNamed]
    cases NamedRegister.ofName? name.toList <;> exact (UInt64.add_zero _).symm
  | tick =>
    obtain ⟨t, m', h, hafter⟩ := m.exists_after
    rw [serve_tick h]
    exact hafter.cycles
  | _ => exact (UInt64.add_zero _).symm

theorem serve_of_refused {m : Machine} {r : Request} {e : Fault} (h : (m.serve r).1 = .error e) :
    (m.serve r).2 = m := by
  cases r with
  | load base program =>
    simp only [serve] at h ⊢
    cases hload : m.load base program with
    | ok m' => simp [hload] at h
    | error e => rfl
  | named name v =>
    simp only [serve] at h ⊢
    cases hset : m.setNamed name v with
    | ok m' => simp [hset] at h
    | error e => rfl
  | tick =>
    obtain ⟨t, m', htick⟩ := m.exists_tick
    rw [serve_tick htick] at h
    cases h
  | _ => cases h

/-! ### Histories -/

theorem size_serveAll (m : Machine) (requests : List Request) :
    (m.serveAll requests).2.memory.size = m.memory.size := by
  induction requests generalizing m with
  | nil => rfl
  | cons r rs ih => exact (ih _).trans (m.size_serve r)

theorem cycles_serveAll (m : Machine) (requests : List Request) :
    (m.serveAll requests).2.cycles = m.cycles + .ofNat (requests.count .tick) := by
  induction requests generalizing m with
  | nil => exact (UInt64.add_zero _).symm
  | cons r rs ih =>
    show ((m.serve r).2.serveAll rs).2.cycles = _
    rw [ih, cycles_serve, List.count_cons, UInt64.ofNat_add, UInt64.add_assoc,
      UInt64.add_comm (if r = .tick then 1 else 0)]
    by_cases hr : r = .tick <;> simp [hr]

theorem length_serveAll (m : Machine) (requests : List Request) :
    (m.serveAll requests).1.length = requests.length := by
  induction requests generalizing m with
  | nil => rfl
  | cons r rs ih => exact congrArg (· + 1) (ih _)

theorem exists_answer_of_tick {requests : List Request} {k : Nat} (m : Machine)
    (h : requests[k]? = some .tick) :
    ∃ t, (m.serveAll requests).1[k]? = some (.ok (some t)) := by
  induction requests generalizing m k with
  | nil => cases h
  | cons r rs ih =>
    cases k with
    | zero =>
      obtain rfl : r = .tick := by simpa using h
      obtain ⟨t, m', htick⟩ := m.exists_tick
      exact ⟨t, by simp only [serveAll, serve_tick htick, List.getElem?_cons_zero]⟩
    | succ k =>
      rw [List.getElem?_cons_succ] at h
      exact ih _ h

theorem serveAll_ticks {n : Nat} {m m' : Machine} {ts : List Tick}
    (h : m.ticks n = .ok (ts, m')) :
    m.serveAll (List.replicate n .tick) = (ts.map fun t => .ok (some t), m') := by
  induction n generalizing m ts with
  | zero =>
    obtain ⟨rfl, rfl⟩ := Prod.mk.inj (Except.ok.inj h)
    rfl
  | succ n ih =>
    obtain ⟨t, m₁, htick⟩ := m.exists_tick
    rw [ticks_succ htick, map_eq_ok] at h
    obtain ⟨⟨ts', m₂⟩, hrest, hpair⟩ := h
    obtain ⟨rfl, rfl⟩ := Prod.mk.inj hpair
    rw [List.replicate_succ, serveAll, serve_tick htick, ih hrest]
    rfl

end Machine

/-- From its creation on, a machine can be asked anything in any order.  No check ever stops it, and
it stays what the unchecked machine is, with as many cells as it was created with.  Every tick is
made and counted, a request that is refused changes nothing, and a run of `n` ticks makes `n`. -/
theorem serveAll_never_traps {s : Storage} (hs : Created s) (requests : List Request) :
    ∃ (m m' : Machine) (answers : List Answer), s = m.storage ∧
      m.serveAll requests = (answers, m') ∧
      Checked.serveAll s requests = .ok (answers, m'.storage) ∧
      m'.storage.cells.size = s.cells.size ∧ 1 ≤ s.cells.size ∧
      s.cells.size ≤ Memory.fullSize ∧
      answers.length = requests.length ∧
      (∀ k : Nat, requests[k]? = some .tick → ∃ t, answers[k]? = some (.ok (some t))) ∧
      (s.cycles.toNat + requests.count .tick < UInt64.size →
        m'.cycles.toNat = s.cycles.toNat + requests.count .tick) ∧
      (∀ r e s', Checked.serve m'.storage r = .ok (.error e, s') → s' = m'.storage) ∧
      ∀ n, ∃ (ts : List Tick) (m'' : Machine), Machine.run n m' = .ok m'' ∧ ts.length = n ∧
        Checked.serveAll m'.storage (List.replicate n .tick) =
          .ok (ts.map fun t => .ok (some t), m''.storage) := by
  obtain ⟨m, rfl⟩ := hs.exists_machine
  refine ⟨m, _, _, rfl, rfl, Checked.serveAll_eq m requests, m.size_serveAll requests,
    m.memory.size_pos, m.memory.size_le, m.length_serveAll requests,
    fun k hk => m.exists_answer_of_tick hk, fun hcount => ?_, fun r e s' hserve => ?_,
    fun n => ?_⟩
  · have hlt : requests.count .tick < UInt64.size := by omega
    have hsum := congrArg UInt64.toNat (m.cycles_serveAll requests)
    rw [UInt64.toNat_add, UInt64.toNat_ofNat', Nat.mod_eq_of_lt hlt] at hsum
    exact hsum.trans (Nat.mod_eq_of_lt hcount)
  · rw [Checked.serve_eq] at hserve
    obtain ⟨hanswer, rfl⟩ := Prod.mk.inj (Except.ok.inj hserve)
    rw [Machine.serve_of_refused hanswer]
  · obtain ⟨ts, m'', hticks, hlength, hrun⟩ := Machine.exists_ticks n (m.serveAll requests).2
    refine ⟨ts, m'', hrun, hlength, ?_⟩
    rw [Checked.serveAll_eq, Machine.serveAll_ticks hticks]

/-- Two cells, of which the first is `DIV A, 0`; then a program of two words at the second cell. -/
theorem serveAll_never_traps_two_cells :
    ∃ s answers s', Created s ∧ s.cells.size = 2 ∧
      Checked.serveAll s [.poke 0 0x8005, .tick, .load 1 [7, 7]] = .ok (answers, s') ∧
      (∃ t, answers[1]? = some (.ok (some t))) ∧ s'.cells.size = 2 ∧ s'.cycles.toNat = 1 := by
  obtain ⟨m, hm⟩ : ∃ m, Machine.withSize 2 = .ok m := ⟨_, rfl⟩
  have hsize : m.storage.cells.size = 2 := by
    obtain rfl := Except.ok.inj hm
    rfl
  have hcycles : m.storage.cycles = 0 := by
    obtain rfl := Except.ok.inj hm
    rfl
  obtain ⟨-, m', answers, -, -, hserve, hkept, -, -, -, hticks, hcount, -⟩ :=
    serveAll_never_traps (.sized hm) [.poke 0 0x8005, .tick, .load 1 [7, 7]]
  refine ⟨_, answers, _, .sized hm, hsize, hserve, hticks 1 rfl, hkept.trans hsize, ?_⟩
  rw [hcycles] at hcount
  exact hcount (by decide)

end Dcpu16
