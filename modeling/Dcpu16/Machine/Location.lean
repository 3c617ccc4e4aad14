import Dcpu16.Machine.Instruction
import Dcpu16.Machine.Memory
import Dcpu16.Machine.Registers

/-! Where an operand lives.  Resolving an operand has all the side effects of its addressing mode:
it takes the word after the program counter and moves the stack pointer.  The location is then
read, and written if the instruction has a result, without being resolved again. -/

namespace Dcpu16

/-- A place that an operand refers to. -/
inductive Location where
  | register (r : Register)
  | cell (address : UInt16)
  | sp | pc | overflow
  /-- A value that has no place; a write to it is accepted and lost. -/
  | value (v : UInt16)
  deriving DecidableEq, Repr

namespace Location

def read (l : Location) (rs : Registers) (m : Memory) : UInt16 :=
  match l with
  | register r => rs.get r
  | cell address => m.read address
  | sp => rs.sp
  | pc => rs.pc
  | overflow => rs.flagWord
  | value v => v

def write (l : Location) (rs : Registers) (m : Memory) (v : UInt16) : Registers × Memory :=
  match l with
  | register r => (rs.set r v, m)
  | cell address => (rs, m.write address v)
  | sp => ({ rs with sp := v }, m)
  | pc => ({ rs with pc := v }, m)
  | overflow => ({ rs with o := v != 0 }, m)
  | value _ => (rs, m)

/-- A write to this place can be seen. -/
def isWritable : Location → Bool
  | value _ => false
  | _ => true

end Location

/-- The next word, and the registers with the program counter moved onto it. -/
def Registers.takeWord (rs : Registers) (m : Memory) : UInt16 × Registers :=
  (m.read rs.advance.pc, rs.advance)

/-- The location of an operand, and the registers after its side effects. -/
def Operand.resolve (x : Operand) (rs : Registers) (m : Memory) : Location × Registers :=
  match x with
  | register r => (.register r, rs)
  | indirect r => (.cell (rs.get r), rs)
  | offset r =>
    let (w, rs') := rs.takeWord m
    (.cell (rs'.get r + w), rs')
  | pop => (.cell rs.sp, rs.shrink)
  | peek => (.cell rs.sp, rs)
  | push => (.cell rs.grow.sp, rs.grow)
  | sp => (.sp, rs)
  | pc => (.pc, rs)
  | overflow => (.overflow, rs)
  | nextCell =>
    let (w, rs') := rs.takeWord m
    (.cell w, rs')
  | next =>
    let (w, rs') := rs.takeWord m
    (.value w, rs')
  | literal v => (.value v, rs)

end Dcpu16
