import Dcpu16.Machine.Instruction
import Dcpu16.Proofs.Except

/-! Words and instructions.  Every word decodes, so no machine stops for an unknown instruction, and
decoding undoes encoding for the operands that a value code can hold.  Encoding undoes decoding for
all words. -/

namespace Dcpu16

theorem Opcode.bits_of_ofBits {n : UInt16} {op : Opcode} (hop : ofBits n = .ok op) :
    op.bits = n := by
  have hall : ∀ k < 16, ∀ op ∈ all[k]?, op.bits = .ofNat k := by decide
  unfold ofBits at hop
  split at hop
  · next op' hget =>
    obtain rfl := Except.ok.inj hop
    have hn := (List.getElem?_eq_some_iff.mp hget).1
    rw [hall n.toNat hn _ hget, UInt16.ofNat_toNat]
  · cases hop

namespace Operand

/-- A value code holds the operand: its literal, if it is one, is below 32. -/
def Fits : Operand → Prop
  | literal v => v.toNat < 32
  | _ => True

instance : DecidablePred Fits := fun x =>
  match x with
  | literal v => inferInstanceAs (Decidable (v.toNat < 32))
  | register _ | indirect _ | offset _ | pop | peek | push | sp | pc | overflow | nextCell
  | next => isTrue trivial

theorem code_lt (x : Operand) : x.code.toNat < 64 := by
  cases x with
  | register r | indirect r | offset r => cases r <;> decide
  | literal v =>
    have h : v.toNat &&& 31 ≤ 31 := Nat.and_le_right
    simp only [code, UInt16.toNat_add, UInt16.toNat_and, UInt16.reduceToNat]
    omega
  | _ => decide

theorem ofCode_eq_ok {c : UInt16} {x : Operand} :
    (ofCode c).toOption = some x ↔ ofCode c = .ok x := by
  cases ofCode c <;> simp [Except.toOption]

theorem exists_ofCode {c : UInt16} (h : c.toNat < 64) : ∃ x, ofCode c = .ok x := by
  have hall : ∀ n < 64, (ofCode (.ofNat n)).toOption.isSome = true := by decide
  have hc := hall c.toNat h
  rw [UInt16.ofNat_toNat] at hc
  obtain ⟨x, hx⟩ := Option.isSome_iff_exists.mp hc
  exact ⟨x, ofCode_eq_ok.mp hx⟩

theorem ofCode_code {x : Operand} (h : x.Fits) : ofCode x.code = .ok x := by
  cases x with
  | register r | indirect r | offset r => cases r <;> rfl
  | literal v =>
    have hall : ∀ n < 32, (ofCode (code (literal (.ofNat n)))).toOption =
        some (literal (.ofNat n)) := by decide
    apply ofCode_eq_ok.mp
    simpa using hall v.toNat h
  | _ => rfl

theorem code_of_ofCode {c : UInt16} {x : Operand} (h : c.toNat < 64) (hx : ofCode c = .ok x) :
    x.code = c ∧ x.Fits := by
  have hall : ∀ n < 64, ∀ x ∈ (ofCode (.ofNat n)).toOption, x.code = .ofNat n ∧ x.Fits := by
    decide
  have hc := hall c.toNat h x
  rw [UInt16.ofNat_toNat] at hc
  exact hc (ofCode_eq_ok.mpr hx)

end Operand

namespace Instruction

/-- Value codes hold both operands. -/
def Fits (i : Instruction) : Prop := i.a.Fits ∧ i.b.Fits

theorem or_shiftLeft {x k : Nat} (y : Nat) (h : x < 1 <<< k) : x ||| y <<< k = x + y <<< k := by
  rw [Nat.one_shiftLeft] at h
  rw [Nat.or_comm, ← Nat.shiftLeft_add_eq_or_of_lt h, Nat.add_comm]

theorem toNat_code_shiftLeft (x : Operand) {k : UInt16} (hk : k.toNat ≤ 10) :
    (x.code <<< k).toNat = x.code.toNat <<< k.toNat := by
  have hc := x.code_lt
  have hp : 2 ^ k.toNat ≤ 2 ^ 10 := Nat.pow_le_pow_right (by decide) hk
  have hm : x.code.toNat * 2 ^ k.toNat ≤ 63 * 2 ^ 10 := Nat.mul_le_mul (by omega) hp
  have hk16 : k.toNat % 16 = k.toNat := Nat.mod_eq_of_lt (by omega)
  rw [UInt16.toNat_shiftLeft, hk16]
  apply Nat.mod_eq_of_lt
  rw [Nat.shiftLeft_eq]
  omega

/-- The three fields of an instruction word do not overlap. -/
theorem toNat_encode (i : Instruction) :
    i.encode.toNat = i.opcode.bits.toNat + 16 * i.a.code.toNat + 1024 * i.b.code.toNat := by
  have ho : i.opcode.bits.toNat < 16 := i.opcode.bits_lt
  have ha := i.a.code_lt
  have hlow : i.opcode.bits.toNat ||| i.a.code.toNat <<< 4 =
      i.opcode.bits.toNat + 16 * i.a.code.toNat := by
    rw [or_shiftLeft _ ho]
    omega
  rw [encode, UInt16.toNat_or, UInt16.toNat_or, toNat_code_shiftLeft _ (by decide),
    toNat_code_shiftLeft _ (by decide)]
  simp only [UInt16.reduceToNat]
  rw [hlow, or_shiftLeft _ (by omega)]
  omega

theorem toNat_opcodeField (w : UInt16) : (w &&& 0x0F).toNat = w.toNat % 16 := by
  rw [UInt16.toNat_and]
  exact Nat.and_two_pow_sub_one_eq_mod w.toNat 4

theorem toNat_operandField (w : UInt16) (k : UInt16) (hk : k.toNat < 16) :
    ((w >>> k) &&& 0x3F).toNat = (w.toNat >>> k.toNat) % 64 := by
  rw [UInt16.toNat_and, UInt16.toNat_shiftRight, Nat.mod_eq_of_lt hk]
  exact Nat.and_two_pow_sub_one_eq_mod _ 6

/-- Every word is an instruction. -/
theorem exists_decode (w : UInt16) : ∃ i, decode w = .ok i := by
  obtain ⟨opcode, hop⟩ := Opcode.exists_ofBits (n := w &&& 0x0F) <| by
    show (w &&& 0x0F).toNat < 16
    rw [toNat_opcodeField]
    omega
  obtain ⟨a, ha⟩ := Operand.exists_ofCode (c := (w >>> 4) &&& 0x3F) <| by
    rw [toNat_operandField w 4 (by decide)]
    omega
  obtain ⟨b, hb⟩ := Operand.exists_ofCode (c := (w >>> 10) &&& 0x3F) <| by
    rw [toNat_operandField w 10 (by decide)]
    omega
  exact ⟨⟨opcode, a, b⟩, by rw [decode, hop, ha, hb]; rfl⟩

theorem decode_encode {i : Instruction} (h : i.Fits) : decode i.encode = .ok i := by
  have ho : i.opcode.bits.toNat < 16 := i.opcode.bits_lt
  have ha := i.a.code_lt
  have hb := i.b.code_lt
  have hopcode : i.encode &&& 0x0F = i.opcode.bits := UInt16.toNat_inj.mp <| by
    rw [toNat_opcodeField, toNat_encode]
    omega
  have hfirst : (i.encode >>> 4) &&& 0x3F = i.a.code := UInt16.toNat_inj.mp <| by
    rw [toNat_operandField _ 4 (by decide), toNat_encode]
    simp only [UInt16.reduceToNat]
    omega
  have hsecond : (i.encode >>> 10) &&& 0x3F = i.b.code := UInt16.toNat_inj.mp <| by
    rw [toNat_operandField _ 10 (by decide), toNat_encode]
    simp only [UInt16.reduceToNat]
    omega
  rw [decode, hopcode, hfirst, hsecond, Opcode.ofBits_bits, Operand.ofCode_code h.1,
    Operand.ofCode_code h.2]
  rfl

theorem decode_eq_ok {w : UInt16} {i : Instruction} (h : decode w = .ok i) :
    i.encode = w ∧ i.Fits := by
  obtain ⟨op, hop, h⟩ := bind_eq_ok.mp h
  obtain ⟨a, ha, h⟩ := bind_eq_ok.mp h
  obtain ⟨b, hb, ⟨⟩⟩ := bind_eq_ok.mp h
  have hfirst := toNat_operandField w 4 (by decide)
  have hsecond := toNat_operandField w 10 (by decide)
  obtain ⟨hcodeA, hfitsA⟩ := Operand.code_of_ofCode (by omega) ha
  obtain ⟨hcodeB, hfitsB⟩ := Operand.code_of_ofCode (by omega) hb
  refine ⟨UInt16.toNat_inj.mp ?_, hfitsA, hfitsB⟩
  rw [toNat_encode, hcodeA, hcodeB, Opcode.bits_of_ofBits hop, toNat_opcodeField, hfirst, hsecond]
  have hw := w.toNat_lt
  simp only [UInt16.reduceToNat]
  omega

end Instruction

end Dcpu16
