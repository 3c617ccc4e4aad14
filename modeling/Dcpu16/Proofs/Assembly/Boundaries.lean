import Dcpu16.Proofs.Assembly.Layout

/-! Where the instructions of a program start.  No instruction reaches into another one, and in a
program of instructions and labels the next one starts where one ends. -/

namespace Dcpu16.Assembly

open Layout

theorem Entry.size_of_clause {e : Entry} {c : Clause} (h : e.clause = some c) :
    e.size = c.size := by
  rw [Entry.size, h]
  rfl

theorem Clause.size_instruction_pos (op : Opcode) (a b : Form) :
    0 < (Clause.instruction op a b).size := by
  rw [Clause.size]
  omega

namespace Layout

/-! ### Positions -/

/-- The first word of this instruction is the word `p` of the program. -/
def InstructionAt (es : List Entry) (p : Nat) (op : Opcode) (a b : Form) : Prop :=
  ∃ before e after, es = before ++ e :: after ∧ e.clause = some (.instruction op a b) ∧
    p = size before

variable {es : List Entry} {p q : Nat} {op op' : Opcode} {a b a' b' : Form}

theorem size_append_cons (before after : List Entry) (e : Entry) :
    size (before ++ e :: after) = size before + e.size + size after := by
  simp [size, Nat.add_assoc]

theorem InstructionAt.apart (h : InstructionAt es p op a b) (h' : InstructionAt es q op' a' b') :
    p + (Clause.instruction op a b).size ≤ q ∨ q + (Clause.instruction op' a' b').size ≤ p ∨
      p = q ∧ op = op' ∧ a = a' ∧ b = b' := by
  obtain ⟨before, e, after, rfl, hclause, rfl⟩ := h
  obtain ⟨before', e', after', hes, hclause', rfl⟩ := h'
  rw [← Entry.size_of_clause hclause, ← Entry.size_of_clause hclause']
  have hsame (heq : before = before') (hhead : e = e') :
      size before = size before' ∧ op = op' ∧ a = a' ∧ b = b' := by
    have hinstruction := hclause.symm.trans (hhead ▸ hclause')
    simp only [Option.some.injEq, Clause.instruction.injEq] at hinstruction
    exact ⟨congrArg size heq, hinstruction⟩
  -- The line of one instruction lies before, at or behind the line of the other.
  rcases List.append_eq_append_iff.mp hes with ⟨between, rfl, htail⟩ | ⟨between, rfl, htail⟩
  · rcases List.cons_eq_append_iff.mp htail with ⟨rfl, hcons⟩ | ⟨rest, rfl, -⟩
    · exact .inr (.inr (hsame (List.append_nil _).symm (List.cons_eq_cons.mp hcons).1.symm))
    · left
      rw [size_append_cons]
      omega
  · rcases List.cons_eq_append_iff.mp htail with ⟨rfl, hcons⟩ | ⟨rest, rfl, -⟩
    · exact .inr (.inr (hsame (List.append_nil _) (List.cons_eq_cons.mp hcons).1))
    · right
      left
      rw [size_append_cons]
      omega

theorem InstructionAt.unique (h : InstructionAt es p op a b) (h' : InstructionAt es p op' a' b') :
    op = op' ∧ a = a' ∧ b = b' := by
  have hpos := Clause.size_instruction_pos op a b
  have hpos' := Clause.size_instruction_pos op' a' b'
  rcases h.apart h' with hle | hle | ⟨-, heq⟩
  · omega
  · omega
  · exact heq

theorem exists_of_address? {key : String} (h : address? es key = some p) :
    ∃ before after, es = before ++ after ∧ p = size before := by
  induction es generalizing p with
  | nil => cases h
  | cons e es ih =>
    rw [address?] at h
    split at h
    · exact ⟨[], e :: es, rfl, (Option.some.inj h).symm⟩
    · obtain ⟨q, hq, rfl⟩ := Option.map_eq_some_iff.mp h
      obtain ⟨before, after, rfl, rfl⟩ := ih hq
      exact ⟨e :: before, after, rfl, by simp [size]⟩

theorem wellFormed_of_size_lt (hnodup : (labels es).Nodup)
    (hdefined : ∀ r ∈ references es, r.1 ∈ labels es) (hsize : size es < 65536) :
    WellFormed es := by
  refine ⟨⟨hnodup, ?_⟩, hdefined, Nat.le_of_lt hsize⟩
  intro key p h
  obtain ⟨before, after, rfl, rfl⟩ := exists_of_address? h
  rw [size_append] at hsize
  omega

theorem mem_referencesFrom {n : Nat} {e : Entry} {key : String} (he : e ∈ es)
    (hkey : key ∈ e.references) : ∃ k, (key, k) ∈ referencesFrom n es := by
  induction es generalizing n with
  | nil => cases he
  | cons e' es ih =>
    rw [referencesFrom]
    rcases List.mem_cons.mp he with rfl | he
    · exact ⟨n, List.mem_append_left _ (List.mem_map.mpr ⟨key, hkey, rfl⟩)⟩
    · obtain ⟨k, hk⟩ := ih (n := n + 1) he
      exact ⟨k, List.mem_append_right _ hk⟩

theorem exists_of_mem_referencesFrom {n : Nat} {r : String × Nat}
    (h : r ∈ referencesFrom n es) : ∃ e ∈ es, r.1 ∈ e.references := by
  induction es generalizing n with
  | nil => cases h
  | cons e es ih =>
    rw [referencesFrom, List.mem_append, List.mem_map] at h
    rcases h with ⟨key, hkey, rfl⟩ | h
    · exact ⟨e, List.mem_cons_self, hkey⟩
    · obtain ⟨e', he', hkey⟩ := ih h
      exact ⟨e', List.mem_cons_of_mem e he', hkey⟩

theorem defined_iff : (∀ r ∈ references es, r.1 ∈ labels es) ↔
    ∀ e ∈ es, ∀ key ∈ e.references, key ∈ labels es := by
  constructor
  · intro h e he key hkey
    obtain ⟨k, hk⟩ := mem_referencesFrom (n := 1) he hkey
    exact h _ hk
  · intro h r hr
    obtain ⟨e, he, hkey⟩ := exists_of_mem_referencesFrom hr
    exact h e he _ hkey

end Layout

end Dcpu16.Assembly
