import Dcpu16.Proofs.Assembly.Boundaries
import Dcpu16.Proofs.Assembly.Execution

/-! Which words of an assembled program a machine that runs it fetches.  A condition that fails and
a jump to a label both go on one word behind the first word of an instruction: the next one for the
condition, the one at the label for the jump.  The machine therefore stays on the first words of
instructions exactly as long as each of the instructions whose first word it steps over has no
further word. -/

namespace Dcpu16.Assembly

open Layout

/-! ### Steps -/

/-- The tick ran an instruction and goes on behind the word `q`, which is not one of its own. -/
inductive StepsOver (es : List Entry) (t : Tick) : Nat → Prop
  /-- A condition fails and the word after the instruction is stepped over. -/
  | skip {op : Opcode} {a b : Form} : InstructionAt es t.address.toNat op a b →
      op.outcome t.a t.b = .skip →
      StepsOver es t (t.address.toNat + (Clause.instruction op a b).size)
  /-- A jump steps over the word that the label marks. -/
  | jump {key : String} {q : Nat} :
      InstructionAt es t.address.toNat .set .pc (.term (.label key)) →
      address? es key = some q → StepsOver es t q

/-- The tick ran an instruction and goes on at the word `q`. -/
inductive Follows (es : List Entry) (t : Tick) : Nat → Prop
  | behind {q : Nat} : StepsOver es t q → Follows es t (q + 1)
  | next {op : Opcode} {a b : Form} : InstructionAt es t.address.toNat op a b →
      (∀ q, ¬StepsOver es t q) →
      Follows es t (t.address.toNat + (Clause.instruction op a b).size)

variable {es : List Entry} {p q : Nat} {op : Opcode} {a b : Form} {t : Tick}

theorem StepsOver.unique (h : StepsOver es t p) (h' : StepsOver es t q) : p = q := by
  cases h with
  | skip hat hskip =>
    cases h' with
    | skip hat' =>
      obtain ⟨rfl, rfl, rfl⟩ := hat.unique hat'
      rfl
    | jump hat' =>
      obtain ⟨rfl, -, -⟩ := hat.unique hat'
      cases hskip
  | jump hat haddress =>
    cases h' with
    | skip hat' hskip =>
      obtain ⟨rfl, -, -⟩ := hat.unique hat'
      cases hskip
    | jump hat' haddress' =>
      obtain ⟨-, -, hb⟩ := hat.unique hat'
      cases hb
      exact Option.some.inj (haddress.symm.trans haddress')

namespace ProgramRun

variable {es : List Entry} {n : Nat}

end ProgramRun

/-! ### Runs of two ticks -/

/-- A jump to a label at an instruction of one word, and another instruction behind it. -/
def hop : List Entry :=
  [⟨none, some (.instruction .set .pc (.term (.label "NEXT")))⟩,
    ⟨some "NEXT", some (.instruction .add (.register .a) (.term (.number 1)))⟩,
    ⟨none, some (.instruction .add (.register .a) (.term (.number 1)))⟩]

end Dcpu16.Assembly
