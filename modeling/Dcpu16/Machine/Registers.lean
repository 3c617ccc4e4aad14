import Dcpu16.Machine.Register
import Dcpu16.Text.Radix

/-! The register file.  Every register holds a word and wraps silently; the overflow flag is a
Boolean that reads as zero or one.  The stack grows downward, so the first push from the starting
state lands on the last address. -/

namespace Dcpu16

/-- The contents of all registers. -/
structure Registers where
  a : UInt16 := 0
  b : UInt16 := 0
  c : UInt16 := 0
  x : UInt16 := 0
  y : UInt16 := 0
  z : UInt16 := 0
  i : UInt16 := 0
  j : UInt16 := 0
  pc : UInt16 := 0
  sp : UInt16 := 0
  o : Bool := false
  deriving DecidableEq, Repr

namespace Registers

def get (rs : Registers) : Register → UInt16
  | .a => rs.a | .b => rs.b | .c => rs.c | .x => rs.x
  | .y => rs.y | .z => rs.z | .i => rs.i | .j => rs.j

def set (rs : Registers) (r : Register) (v : UInt16) : Registers :=
  match r with
  | .a => { rs with a := v } | .b => { rs with b := v }
  | .c => { rs with c := v } | .x => { rs with x := v }
  | .y => { rs with y := v } | .z => { rs with z := v }
  | .i => { rs with i := v } | .j => { rs with j := v }

/-- The overflow flag as a word. -/
def flagWord (rs : Registers) : UInt16 := if rs.o then 1 else 0

def getNamed (rs : Registers) : NamedRegister → UInt16
  | .general r => rs.get r
  | .pc => rs.pc
  | .sp => rs.sp
  | .o => rs.flagWord

/-- Writes a register; any word but zero raises the overflow flag. -/
def setNamed (rs : Registers) (r : NamedRegister) (v : UInt16) : Registers :=
  match r with
  | .general r => rs.set r v
  | .pc => { rs with pc := v }
  | .sp => { rs with sp := v }
  | .o => { rs with o := v != 0 }

/-- Moves the program counter to the next address. -/
def advance (rs : Registers) : Registers := { rs with pc := rs.pc + 1 }

/-- Moves the stack pointer down, to the cell that a push writes. -/
def grow (rs : Registers) : Registers := { rs with sp := rs.sp - 1 }

/-- Moves the stack pointer up, past the cell that a pop has read. -/
def shrink (rs : Registers) : Registers := { rs with sp := rs.sp + 1 }

/-- The register file as one line of hexadecimal words. -/
def line (rs : Registers) : String :=
  String.join (Register.all.map fun r => s!"{r.name}={Text.hex4 (rs.get r).toNat} ") ++
    s!"PC={Text.hex4 rs.pc.toNat} SP={Text.hex4 rs.sp.toNat} O={rs.flagWord.toNat}"

theorem get_set (rs : Registers) (r s : Register) (v : UInt16) :
    (rs.set r v).get s = if s = r then v else rs.get s := by cases r <;> cases s <;> rfl

@[simp] theorem get_set_self (rs : Registers) (r : Register) (v : UInt16) :
    (rs.set r v).get r = v := by simp [get_set]

@[simp] theorem pc_set (rs : Registers) (r : Register) (v : UInt16) : (rs.set r v).pc = rs.pc := by
  cases r <;> rfl

@[simp] theorem sp_set (rs : Registers) (r : Register) (v : UInt16) : (rs.set r v).sp = rs.sp := by
  cases r <;> rfl

@[simp] theorem o_set (rs : Registers) (r : Register) (v : UInt16) : (rs.set r v).o = rs.o := by
  cases r <;> rfl

/-- Two register files agree if they agree on every register. -/
theorem ext_get {rs ss : Registers} (hg : ∀ r, rs.get r = ss.get r) (hpc : rs.pc = ss.pc)
    (hsp : rs.sp = ss.sp) (ho : rs.o = ss.o) : rs = ss := by
  have h := fun r => hg r
  cases rs; cases ss
  simp only at hpc hsp ho
  simp only [Registers.mk.injEq, hpc, hsp, ho, and_true]
  exact ⟨h .a, h .b, h .c, h .x, h .y, h .z, h .i, h .j⟩

end Registers

end Dcpu16
