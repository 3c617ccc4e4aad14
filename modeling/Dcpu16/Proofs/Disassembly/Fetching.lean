import Dcpu16.Disassembly.Text
import Dcpu16.Proofs.Machine.Running

/-! The disassembler and the machine take the same words.  The machine takes the words that its
program counter passes while the operands are resolved; these are the words that the disassembler
fetches behind the instruction word, also where addresses wrap. -/

namespace Dcpu16

/-! ### Words at an address -/

section Words

variable (fetch : UInt16 → UInt16) (address : UInt16)

@[simp] theorem length_wordsAt (n : Nat) : (wordsAt fetch address n).length = n := by
  simp [wordsAt]

theorem getElem?_wordsAt {n k : Nat} (h : k < n) :
    (wordsAt fetch address n)[k]? = some (fetch (address + .ofNat k)) := by
  simp [wordsAt, h]

theorem wordsAt_add (j k : Nat) :
    wordsAt fetch address (j + k) =
      wordsAt fetch address j ++ wordsAt fetch (address + .ofNat j) k := by
  simp [wordsAt, List.range_add, UInt16.ofNat_add, UInt16.add_assoc]

theorem wordsAt_one : wordsAt fetch address 1 = [fetch address] := by
  simp [wordsAt, List.range_succ]

theorem wordsAt_succ (n : Nat) :
    wordsAt fetch address (n + 1) = fetch address :: wordsAt fetch (address + 1) n := by
  rw [Nat.add_comm, wordsAt_add, wordsAt_one]
  rfl

end Words

/-! ### The walk of the disassembler -/

theorem Instruction.size_sub_one (i : Instruction) :
    i.size - 1 = i.a.extraWords + i.b.extraWords := by
  rw [size]
  omega

/-- Only an operand with an extension word shows the word it is given. -/
theorem Operand.text_headD (x : Operand) (fetch : UInt16 → UInt16) (address : UInt16)
    (rest : List UInt16) :
    x.text ((wordsAt fetch address x.extraWords ++ rest).headD 0) = x.text (fetch address) := by
  cases x with
  | offset | nextCell | next => rw [extraWords, wordsAt_one, List.singleton_append, List.headD_cons]
  | _ => rfl

/-- The walk takes a word for an operand that has one, and stands there afterwards. -/
theorem Operand.run_format_takeNext (x : Operand) (fetch : UInt16 → UInt16) (address : UInt16) :
    (x.format (takeNext fetch)).run address =
      (x.text (fetch (address + 1)), address + .ofNat x.extraWords) := by
  cases x with
  | offset | nextCell | next => rfl
  | _ => exact congrArg (Prod.mk _) (UInt16.add_zero address).symm

/-- The walk shows the instruction with the words behind its own. -/
theorem textAt_eq {fetch : UInt16 → UInt16} {address : UInt16} {i : Instruction}
    (h : Instruction.decode (fetch address) = .ok i) :
    textAt fetch address = (i.text (wordsAt fetch (address + 1) (i.size - 1)), i.size) := by
  have hfirst : i.a.text ((wordsAt fetch (address + 1) (i.size - 1)).headD 0) =
      i.a.text (fetch (address + 1)) := by
    rw [i.size_sub_one, wordsAt_add, Operand.text_headD]
  have hdrop : (wordsAt fetch (address + 1) (i.size - 1)).drop i.a.extraWords =
      wordsAt fetch (address + .ofNat i.a.extraWords + 1) i.b.extraWords ++ [] := by
    rw [i.size_sub_one, wordsAt_add, List.drop_left' (length_wordsAt _ _ _), List.append_nil]
    ac_rfl
  rw [i.text_eq, hfirst, hdrop, Operand.text_headD]
  simp only [textAt, h, Instruction.format, StateT.run_bind, Operand.run_format_takeNext]
  rfl

/-! ### Words that a tick takes -/

/-- The words that the program counter passes while the operand is resolved. -/
def Operand.taken (x : Operand) (rs : Registers) (m : Memory) : List UInt16 :=
  wordsAt m.read (rs.pc + 1) ((x.resolve rs m).2.pc - rs.pc).toNat

/-- The words that a tick takes behind the word of its instruction: those of operand A, and then
those of operand B from where operand A leaves the program counter. -/
def Machine.taken (m : Machine) (i : Instruction) : List UInt16 :=
  i.a.taken m.registers m.memory ++
    i.b.taken (i.a.resolve m.registers m.memory).2 m.memory

theorem Operand.taken_eq (x : Operand) (rs : Registers) (m : Memory) :
    x.taken rs m = wordsAt m.read (rs.pc + 1) x.extraWords := by
  have hpc : (x.resolve rs m).2.pc - rs.pc = .ofNat x.extraWords := by
    rw [x.resolve_eq]
    show rs.pc + .ofNat x.extraWords - rs.pc = _
    rw [UInt16.add_comm, UInt16.add_sub_cancel]
  have hextra := x.extraWords_le
  rw [taken, hpc, UInt16.toNat_ofNat', Nat.mod_eq_of_lt (by omega)]

/-- Only an operand with an extension word looks at the word it is given. -/
theorem Operand.place_headD (x : Operand) (rs : Registers) (sp : UInt16)
    (fetch : UInt16 → UInt16) (address : UInt16) :
    x.place rs sp (fetch address) =
      x.place rs sp ((wordsAt fetch address x.extraWords).headD 0) := by
  cases x with
  | offset | nextCell | next => rw [extraWords, wordsAt_one, List.headD_cons]
  | _ => rfl

namespace Machine

variable (m : Machine) (i : Instruction)

theorem taken_eq : m.taken i = wordsAt m.memory.read (m.registers.pc + 1) (i.size - 1) := by
  rw [taken, Operand.taken_eq, Operand.taken_eq, Operand.resolve_eq, i.size_sub_one, wordsAt_add,
    Registers.pc_past]
  ac_rfl

theorem placeA_taken :
    m.placeA i = i.a.place m.registers m.registers.sp ((m.taken i).headD 0) := by
  rw [placeA, Operand.place_headD, taken, Operand.taken_eq]
  cases i.a <;> rfl

theorem placeB_taken :
    m.placeB i = i.b.place m.registers (m.registers.sp + i.a.stackShift)
      (((m.taken i).drop i.a.extraWords).headD 0) := by
  have hdrop : (m.taken i).drop i.a.extraWords =
      wordsAt m.memory.read (m.registers.pc + 1 + .ofNat i.a.extraWords) i.b.extraWords := by
    rw [taken_eq, i.size_sub_one, wordsAt_add]
    exact List.drop_left' (length_wordsAt _ _ _)
  rw [placeB, Operand.place_headD, hdrop]

/-- The words that a tick takes lie in the cells behind the instruction word, whose addresses wrap
at 65536 and then at the end of memory. -/
theorem getElem?_taken {k : Nat} (h : k < (m.taken i).length) :
    (m.taken i)[k]? =
      m.memory.cells[(m.registers.pc.toNat + 1 + k) % 65536 % m.memory.size]? := by
  rw [taken_eq, length_wordsAt] at h
  rw [taken_eq, getElem?_wordsAt _ _ h, Memory.read]
  have hindex : m.memory.index (m.registers.pc + 1 + .ofNat k) =
      (m.registers.pc.toNat + 1 + k) % 65536 % m.memory.size := by
    rw [Memory.index, UInt16.toNat_add, UInt16.toNat_add, UInt16.toNat_ofNat']
    show ((m.registers.pc.toNat + 1) % 65536 + k % 65536) % 65536 % _ = _
    rw [← Nat.add_mod]
    rfl
  simp only [hindex]
  exact (Array.getElem?_eq_getElem _).symm

/-- At the program counter, the disassembler shows the instruction of the next tick with the words
that the tick takes, and counts as many words as the tick uses. -/
theorem textAt_pc (m : Machine) :
    ∃ t m', m.tick = .ok (t, m') ∧
      m.memory.textAt m.registers.pc =
        (t.instruction.text (m.taken t.instruction), 1 + (m.taken t.instruction).length) ∧
      1 + (m.taken t.instruction).length = t.instruction.size ∧
      (∀ k < (m.taken t.instruction).length, (m.taken t.instruction)[k]? =
        m.memory.cells[(m.registers.pc.toNat + 1 + k) % 65536 % m.memory.size]?) ∧
      m.placeA t.instruction = t.instruction.a.place m.registers m.registers.sp
        ((m.taken t.instruction).headD 0) ∧
      m.placeB t.instruction = t.instruction.b.place m.registers
        (m.registers.sp + t.instruction.a.stackShift)
        (((m.taken t.instruction).drop t.instruction.a.extraWords).headD 0) ∧
      (m.outcome t.instruction ≠ .skip → (∀ v, m.store? t.instruction ≠ some (.pc, v)) →
        m'.registers.pc = m.registers.pc + .ofNat (m.memory.textAt m.registers.pc).2) := by
  obtain ⟨i, hi⟩ := Instruction.exists_decode (m.memory.read m.registers.pc)
  have htext : m.memory.textAt m.registers.pc = (i.text (m.taken i), i.size) := by
    rw [Memory.textAt, textAt_eq hi, taken_eq]
  have hsize : 1 + (m.taken i).length = i.size := by
    have hpos := i.size_pos
    rw [taken_eq, length_wordsAt]
    omega
  refine ⟨_, _, tick_eq hi, by rw [htext, hsize], hsize, fun k hk => m.getElem?_taken i hk,
    m.placeA_taken i, m.placeB_taken i, fun hskip hwrite => ?_⟩
  rw [htext]
  exact (m.after_next i).pc_of_proceeds hskip hwrite

end Machine

end Dcpu16
