import Mathlib.Data.List.Induction
import Mathlib.Data.List.Infix
import Mathlib.Data.Nat.ModEq
import Dcpu16.Proofs.Machine.ClosedForm

/-! The stack that instructions keep in memory is a last-in, first-out stack.  The words on it lie
in the cells below the starting stack pointer, the oldest in the highest, and as long as these cells
are different ones no push disturbs what was pushed before. -/

namespace Dcpu16

/-- What a program does with its stack. -/
inductive StackOp where
  | push (v : UInt16)
  | pop
  deriving DecidableEq, Repr

namespace StackOp

/-- The words on a stack, the latest first, after an operation. -/
def apply (stack : List UInt16) : StackOp → List UInt16
  | push v => v :: stack
  | pop => stack.tail

/-- The words that are pushed and not yet popped, the latest first. -/
def contents (ops : List StackOp) : List UInt16 := ops.foldl apply []

def pushes (ops : List StackOp) : Nat := ops.countP (· ≠ pop)

def pops (ops : List StackOp) : Nat := ops.count pop

/-- No operation pops from an empty stack, and no more than `depth` words ever lie on the stack. -/
def Bounded (depth : Nat) (ops : List StackOp) : Prop :=
  ∀ before, before <+: ops → pops before ≤ pushes before ∧ pushes before - pops before ≤ depth

instance (depth : Nat) : DecidablePred (Bounded depth) := fun ops =>
  decidable_of_iff (∀ before ∈ ops.inits,
    pops before ≤ pushes before ∧ pushes before - pops before ≤ depth)
    (by simp only [List.mem_inits, Bounded])

theorem contents_append (ops : List StackOp) (op : StackOp) :
    contents (ops ++ [op]) = apply (contents ops) op := by
  simp [contents]

theorem pushes_append (ops : List StackOp) (op : StackOp) :
    pushes (ops ++ [op]) = pushes ops + if op = pop then 0 else 1 := by
  by_cases h : op = pop <;> simp [pushes, h]

theorem pops_append (ops : List StackOp) (op : StackOp) :
    pops (ops ++ [op]) = pops ops + if op = pop then 1 else 0 := by
  by_cases h : op = pop <;> simp [pops, h]

theorem Bounded.init {depth : Nat} {ops : List StackOp} {op : StackOp}
    (h : Bounded depth (ops ++ [op])) : Bounded depth ops := by
  intro before hbefore
  exact h before (hbefore.trans (List.prefix_append ops [op]))

theorem Bounded.length_contents {depth : Nat} {ops : List StackOp} (h : Bounded depth ops) :
    (contents ops).length = pushes ops - pops ops := by
  induction ops using List.reverseRecOn with
  | nil => rfl
  | append_singleton ops op ih =>
    have hlength := ih h.init
    have hbefore := (h ops (List.prefix_append ops _)).1
    rw [contents_append, pushes_append, pops_append]
    cases op with
    | push v =>
      simp only [apply, List.length_cons, reduceCtorEq, if_false]
      omega
    | pop =>
      simp only [apply, List.length_tail, if_true]
      omega

end StackOp

namespace Machine

/-! ### One operation -/

/-- `SET PUSH, A`. -/
def pushing : Instruction := ⟨.set, .push, .register .a⟩

/-- `SET B, POP`. -/
def popping : Instruction := ⟨.set, .register .b, .pop⟩

/-- Pushes a word from register A with the instruction at `p`. -/
def push (m : Machine) (p v : UInt16) : Except Fault Machine :=
  { m with registers := { m.registers with a := v, pc := p } }.tick.map Prod.snd

/-- Pops a word into register B with the instruction at `q`. -/
def pop (m : Machine) (q : UInt16) : Except Fault Machine :=
  { m with registers := { m.registers with pc := q } }.tick.map Prod.snd

def operate (p q : UInt16) (m : Machine) : StackOp → Except Fault Machine
  | .push v => m.push p v
  | .pop => m.pop q

/-- Does operations one after another. -/
def operateAll (p q : UInt16) (m : Machine) (ops : List StackOp) : Except Fault Machine :=
  ops.foldlM (operate p q) m

theorem operateAll_append (p q : UInt16) (m : Machine) (ops : List StackOp) (op : StackOp) :
    operateAll p q m (ops ++ [op]) = operateAll p q m ops >>= fun m' => operate p q m' op := by
  simp [operateAll]

theorem exists_push {m : Machine} {p : UInt16} (hp : m.memory.read p = pushing.encode)
    (v : UInt16) :
    ∃ m', m.push p v = .ok m' ∧ m'.registers.sp = m.registers.sp - 1 ∧
      m'.registers.o = m.registers.o ∧ m'.memory.size = m.memory.size ∧
      ∀ address, m'.memory.read address =
        if m.memory.index address = m.memory.index (m.registers.sp - 1) then v
        else m.memory.read address := by
  let start : Machine := { m with registers := { m.registers with a := v, pc := p } }
  have hdecode : Instruction.decode (start.memory.read start.registers.pc) = .ok pushing := by
    show Instruction.decode (m.memory.read p) = .ok pushing
    rw [hp]
    exact Instruction.decode_encode ⟨trivial, trivial⟩
  have hstore : start.store? pushing = some (.cell (m.registers.sp - 1), v) := rfl
  have hafter := start.after_next pushing
  refine ⟨start.next pushing, ?_, ?_, ?_, hafter.size, fun address => ?_⟩
  · show start.tick.map Prod.snd = _
    rw [tick_eq hdecode]
    rfl
  · rw [hafter.sp, hstore]
    show m.registers.sp + -1 + 0 = m.registers.sp - 1
    rw [UInt16.add_zero, UInt16.sub_eq_add_neg]
  · rw [hafter.flag, hstore]
    rfl
  · rw [hafter.cell, hstore]

theorem exists_pop {m : Machine} {q : UInt16} (hq : m.memory.read q = popping.encode) :
    ∃ m', m.pop q = .ok m' ∧ m'.registers.sp = m.registers.sp + 1 ∧
      m'.registers.o = m.registers.o ∧ m'.registers.b = m.memory.read m.registers.sp ∧
      m'.memory.size = m.memory.size ∧
      ∀ address, m'.memory.read address = m.memory.read address := by
  let start : Machine := { m with registers := { m.registers with pc := q } }
  have hdecode : Instruction.decode (start.memory.read start.registers.pc) = .ok popping := by
    show Instruction.decode (m.memory.read q) = .ok popping
    rw [hq]
    exact Instruction.decode_encode ⟨trivial, trivial⟩
  have hstore : start.store? popping =
      some (.register .b, m.memory.read (m.registers.sp + 0)) := rfl
  rw [UInt16.add_zero] at hstore
  have hafter := start.after_next popping
  refine ⟨start.next popping, ?_, ?_, ?_, ?_, hafter.size, fun address => ?_⟩
  · show start.tick.map Prod.snd = _
    rw [tick_eq hdecode]
    rfl
  · rw [hafter.sp, hstore]
    show m.registers.sp + 0 + 1 = m.registers.sp + 1
    rw [UInt16.add_zero]
  · rw [hafter.flag, hstore]
    rfl
  · have hb := hafter.register .b
    rw [hstore] at hb
    exact hb
  · rw [hafter.cell, hstore]

/-! ### The cells of the stack -/

/-- The cell of the word that is pushed onto `k` others. -/
def stackCell (m : Machine) (k : Nat) : Nat := m.memory.index (m.registers.sp - .ofNat (k + 1))

/-- The stack has room for `depth` words: their cells do not wrap around the end of the address
space in the middle of a memory. -/
def HasRoom (m : Machine) (depth : Nat) : Prop :=
  depth ≤ m.memory.size ∧
    (m.memory.size ∣ 65536 ∨ m.registers.sp = 0 ∨ depth ≤ m.registers.sp.toNat)

theorem HasRoom.exists_top {m : Machine} {depth : Nat} (h : m.HasRoom depth) :
    ∃ top, depth ≤ top ∧ ∀ k < depth, m.stackCell k = (top - (k + 1)) % m.memory.size := by
  obtain ⟨hsize, hwrap⟩ := h
  have hlarge : m.memory.size ≤ 65536 := m.memory.size_le
  have hsp := m.registers.sp.toNat_lt
  have hcell (k : Nat) (hk : k < depth) : m.stackCell k =
      (65536 - (k + 1) + m.registers.sp.toNat) % 65536 % m.memory.size := by
    rw [stackCell, Memory.index, UInt16.toNat_sub, UInt16.toNat_ofNat']
    congr 1
    omega
  -- The cells count down from a number that does not wrap between the first and the last of them.
  rcases hwrap with hdvd | hzero | hle
  · refine ⟨65536 + m.registers.sp.toNat, by omega, fun k hk => ?_⟩
    rw [hcell k hk, Nat.mod_mod_of_dvd _ hdvd]
    congr 1
    omega
  · refine ⟨65536, by omega, fun k hk => ?_⟩
    rw [hcell k hk, hzero, UInt16.toNat_zero, Nat.add_zero]
    congr 1
    omega
  · refine ⟨m.registers.sp.toNat, hle, fun k hk => ?_⟩
    rw [hcell k hk]
    congr 1
    omega

theorem HasRoom.stackCell_inj {m : Machine} {depth j k : Nat} (h : m.HasRoom depth)
    (hj : j < depth) (hk : k < depth) (heq : m.stackCell j = m.stackCell k) : j = k := by
  obtain ⟨top, htop, hcell⟩ := h.exists_top
  have hsize := h.1
  rw [hcell j hj, hcell k hk] at heq
  have hnear : |((top - (k + 1) : Nat) : Int) - (top - (j + 1) : Nat)| < m.memory.size := by
    rw [abs_lt]
    omega
  have := Nat.ModEq.eq_of_abs_lt heq hnear
  omega

/-! ### Runs -/

theorem sub_ofNat_succ (w : UInt16) (n : Nat) : w - .ofNat (n + 1) = w - .ofNat n - 1 := by
  rw [UInt16.ofNat_add]
  show w - (.ofNat n + 1) = w - .ofNat n - 1
  grind

/-- The machine `m'` is `m` with words on its stack, the latest first: nothing else in memory has
changed but stack cells, of which there are `depth`. -/
structure Stacked (m : Machine) (depth : Nat) (stack : List UInt16) (m' : Machine) : Prop where
  size : m'.memory.size = m.memory.size
  sp : m'.registers.sp = m.registers.sp - .ofNat stack.length
  flag : m'.registers.o = m.registers.o
  word (k : Nat) (h : k < stack.reverse.length) :
    m'.memory.read (m.registers.sp - .ofNat (k + 1)) = stack.reverse[k]
  kept (address : UInt16) : (∀ k < depth, m.memory.index address ≠ m.stackCell k) →
    m'.memory.read address = m.memory.read address

theorem stacked_nil (m : Machine) (depth : Nat) : m.Stacked depth [] m :=
  ⟨rfl, by simp, rfl, nofun, fun _ _ => rfl⟩

section Step

variable {m m' : Machine} {p q : UInt16} {depth : Nat} {stack : List UInt16}

theorem Stacked.index (h : m.Stacked depth stack m') (address : UInt16) :
    m'.memory.index address = m.memory.index address :=
  congrArg (address.toNat % ·) h.size

theorem Stacked.push (h : m.Stacked depth stack m') (hroom : m.HasRoom depth)
    (hstack : stack.length < depth) (hp : m.memory.read p = pushing.encode)
    (hcell : ∀ k < depth, m.memory.index p ≠ m.stackCell k) (v : UInt16) :
    ∃ m'', m'.push p v = .ok m'' ∧ m.Stacked depth (v :: stack) m'' := by
  have hword : m'.memory.read p = pushing.encode := (h.kept p hcell).trans hp
  obtain ⟨m'', hpush, hsp, hflag, hsize, hread⟩ := exists_push hword v
  have htop : m'.registers.sp - 1 = m.registers.sp - .ofNat (stack.length + 1) := by
    rw [h.sp, sub_ofNat_succ]
  rw [htop] at hsp hread
  simp only [h.index] at hread
  refine ⟨m'', hpush, hsize.trans h.size, hsp, hflag.trans h.flag, fun k hk => ?_,
    fun address haddress => ?_⟩
  · rw [hread]
    by_cases hlast : k = stack.length
    · subst hlast
      simp
    · have hlt : k < stack.reverse.length := by
        simp at hk ⊢
        omega
      rw [if_neg, h.word k hlt]
      · simp [List.getElem_append_left hlt]
      · intro heq
        exact hlast (hroom.stackCell_inj (by simp at hlt; omega) hstack heq)
  · have hother : m.memory.index address ≠ m.memory.index _ := haddress _ hstack
    rw [hread, if_neg hother]
    exact h.kept address haddress

theorem Stacked.pop {v : UInt16} (h : m.Stacked depth (v :: stack) m')
    (hq : m.memory.read q = popping.encode)
    (hcell : ∀ k < depth, m.memory.index q ≠ m.stackCell k) :
    ∃ m'', m'.pop q = .ok m'' ∧ m.Stacked depth stack m'' ∧ m''.registers.b = v := by
  have hword : m'.memory.read q = popping.encode := (h.kept q hcell).trans hq
  obtain ⟨m'', hpop, hsp, hflag, hb, hsize, hread⟩ := exists_pop hword
  refine ⟨m'', hpop, ⟨hsize.trans h.size, ?_, hflag.trans h.flag, fun k hk => ?_,
    fun address haddress => ?_⟩, ?_⟩
  · rw [hsp, h.sp, List.length_cons, sub_ofNat_succ, UInt16.sub_add_cancel]
  · have hlt : k < (v :: stack).reverse.length := by
      simp at hk ⊢
      omega
    rw [hread, h.word k hlt]
    simp [List.getElem_append_left hk]
  · rw [hread, h.kept address haddress]
  · rw [hb, h.sp]
    have htop := h.word stack.length (by simp)
    simpa using htop

theorem exists_stacked {ops : List StackOp} (hroom : m.HasRoom depth)
    (hp : m.memory.read p = pushing.encode) (hq : m.memory.read q = popping.encode)
    (hcells : ∀ k < depth, m.memory.index p ≠ m.stackCell k ∧ m.memory.index q ≠ m.stackCell k)
    (hops : StackOp.Bounded depth ops) :
    ∃ m', operateAll p q m ops = .ok m' ∧ m.Stacked depth (StackOp.contents ops) m' ∧
      ∀ earlier, ops = earlier ++ [.pop] →
        (StackOp.contents earlier).head? = some m'.registers.b := by
  induction ops using List.reverseRecOn with
  | nil => exact ⟨m, rfl, m.stacked_nil depth, by simp⟩
  | append_singleton ops op ih =>
    obtain ⟨m', hrun, hstacked, -⟩ := ih hops.init
    have hlength := hops.init.length_contents
    have hbefore := hops ops (List.prefix_append ops _)
    have hafter := hops _ (List.prefix_refl _)
    rw [StackOp.pushes_append, StackOp.pops_append] at hafter
    rw [operateAll_append, hrun, StackOp.contents_append]
    cases op with
    | push v =>
      have hspace : (StackOp.contents ops).length < depth := by
        simp only [reduceCtorEq, if_false] at hafter
        omega
      obtain ⟨m'', hpush, hstacked'⟩ :=
        hstacked.push hroom hspace hp (fun k hk => (hcells k hk).1) v
      exact ⟨m'', hpush, hstacked', by simp⟩
    | pop =>
      obtain ⟨v, stack, hcontents⟩ : ∃ v stack, StackOp.contents ops = v :: stack := by
        apply List.exists_cons_of_length_pos
        simp only [if_true] at hafter
        omega
      rw [hcontents] at hstacked
      obtain ⟨m'', hpop, hstacked', hb⟩ := hstacked.pop hq fun k hk => (hcells k hk).2
      refine ⟨m'', hpop, by rwa [hcontents], fun earlier hearlier => ?_⟩
      obtain ⟨rfl, -⟩ := List.append_inj' hearlier rfl
      rw [hcontents, hb]
      rfl

end Step

/-- At every point of a run of pushes and pops, the stack pointer is as far below its start as there
are words on the stack, the latest word pushed is the one that a pop brings back, and nothing but
the cells of the stack has changed. -/
theorem operateAll_lifo {m : Machine} {p q : UInt16} {depth : Nat} {ops : List StackOp}
    (hroom : m.HasRoom depth) (hp : m.memory.read p = pushing.encode)
    (hq : m.memory.read q = popping.encode)
    (hcells : ∀ k < depth, m.memory.index p ≠ m.stackCell k ∧ m.memory.index q ≠ m.stackCell k)
    (hops : StackOp.Bounded depth ops) :
    ∀ before, before <+: ops → ∃ m', operateAll p q m before = .ok m' ∧
      (∀ earlier, before = earlier ++ [.pop] →
        (StackOp.contents earlier).head? = some m'.registers.b) ∧
      m'.registers.sp = m.registers.sp - .ofNat (StackOp.pushes before - StackOp.pops before) ∧
      (StackOp.pushes before = StackOp.pops before → m'.registers.sp = m.registers.sp) ∧
      m'.registers.o = m.registers.o ∧ m'.memory.size = m.memory.size ∧
      ∀ address, (∀ k < depth, m.memory.index address ≠ m.stackCell k) →
        m'.memory.read address = m.memory.read address := by
  intro before hbefore
  have hbounded : StackOp.Bounded depth before :=
    fun first hfirst => hops first (hfirst.trans hbefore)
  obtain ⟨m', hrun, hstacked, hpop⟩ := exists_stacked hroom hp hq hcells hbounded
  have hsp : m'.registers.sp =
      m.registers.sp - .ofNat (StackOp.pushes before - StackOp.pops before) := by
    rw [hstacked.sp, hbounded.length_contents]
  refine ⟨m', hrun, hpop, hsp, fun hmatched => ?_, hstacked.flag, hstacked.size, hstacked.kept⟩
  rw [hsp, hmatched, Nat.sub_self]
  exact UInt16.sub_zero _

/-- On four cells with the stack pointer at one, the second word pushed lies at the far end of
memory. -/
theorem operateAll_lifo_wrapping :
    ∃ m', operateAll 1 2
        { memory := ⟨#[0, pushing.encode, popping.encode, 0], by decide, by decide⟩
          registers := { sp := 1 } } [.push 7, .push 9, .pop] = .ok m' ∧
      m'.registers.b = 9 ∧ m'.registers.sp = 0 ∧ m'.memory.read 1 = pushing.encode := by
  obtain ⟨m', hrun, hpop, hsp, -, -, -, hkept⟩ := @operateAll_lifo
    { memory := ⟨#[0, pushing.encode, popping.encode, 0], by decide, by decide⟩
      registers := { sp := 1 } } 1 2 2 [.push 7, .push 9, .pop]
    ⟨by decide, .inl (by decide)⟩ (by decide) (by decide) (by decide) (by decide) _
    (List.prefix_refl _)
  have hb := hpop [.push 7, .push 9] rfl
  exact ⟨m', hrun, (Option.some.inj hb).symm, hsp, hkept 1 (by decide)⟩

end Machine

end Dcpu16
