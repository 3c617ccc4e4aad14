import Dcpu16.Image.Binary

/-! Words and pairs of bytes are in one-to-one correspondence, and so are programs and binary
images. -/

namespace Dcpu16.Image.Binary

theorem toNat_wordOf (high low : UInt8) :
    (wordOf high low).toNat = high.toNat * 256 + low.toNat := by
  have hhigh := high.toNat_lt
  have hlow : low.toNat < 2 ^ 8 := low.toNat_lt
  have hor : high.toNat <<< 8 ||| low.toNat = high.toNat <<< 8 + low.toNat :=
    (Nat.shiftLeft_add_eq_or_of_lt hlow high.toNat).symm
  have hshift : high.toNat <<< 8 % 2 ^ 16 = high.toNat <<< 8 := by
    rw [Nat.shiftLeft_eq]
    omega
  simp only [wordOf, UInt16.toNat_or, UInt16.toNat_shiftLeft, UInt8.toNat_toUInt16,
    UInt16.reduceToNat, Nat.reduceMod]
  rw [hshift, hor, Nat.shiftLeft_eq]

theorem bytesOf_wordOf (high low : UInt8) : bytesOf (wordOf high low) = [high, low] := by
  have hhigh := high.toNat_lt
  have hlow := low.toNat_lt
  have hword := toNat_wordOf high low
  have hupper : (wordOf high low >>> 8).toUInt8 = high := by
    apply UInt8.toNat_inj.mp
    simp only [UInt16.toNat_toUInt8, UInt16.toNat_shiftRight, hword, UInt16.reduceToNat,
      Nat.reduceMod, Nat.shiftRight_eq_div_pow]
    omega
  have hlower : (wordOf high low).toUInt8 = low := by
    apply UInt8.toNat_inj.mp
    rw [UInt16.toNat_toUInt8, hword]
    omega
  rw [bytesOf, hupper, hlower]

theorem wordOf_bytes (w : UInt16) : wordOf (w >>> 8).toUInt8 w.toUInt8 = w := by
  have hw := w.toNat_lt
  apply UInt16.toNat_inj.mp
  rw [toNat_wordOf]
  simp only [UInt16.toNat_toUInt8, UInt16.toNat_shiftRight, UInt16.reduceToNat, Nat.reduceMod,
    Nat.shiftRight_eq_div_pow]
  omega

theorem length_render (program : List UInt16) : (render program).length = 2 * program.length := by
  induction program with
  | nil => rfl
  | cons w program ih =>
    have hcons : render (w :: program) = bytesOf w ++ render program := rfl
    rw [hcons, List.length_append, ih, List.length_cons]
    simp only [bytesOf, List.length_cons, List.length_nil]
    omega

theorem wordsFrom_render (done program : List UInt16) :
    wordsFrom done (render program) = done.reverse ++ program := by
  induction program generalizing done with
  | nil => simp [render, wordsFrom]
  | cons w program ih =>
    have hcons : render (w :: program) = (w >>> 8).toUInt8 :: w.toUInt8 :: render program := rfl
    rw [hcons, wordsFrom, wordOf_bytes, ih]
    simp

theorem render_wordsFrom (done : List UInt16) (bytes : List UInt8) (h : bytes.length % 2 = 0) :
    render (wordsFrom done bytes) = render done.reverse ++ bytes := by
  induction done, bytes using wordsFrom.induct with
  | case1 done high low bytes ih =>
    have hrest : bytes.length % 2 = 0 := by
      simp only [List.length_cons] at h
      omega
    have hword : render [wordOf high low] = [high, low] := by
      simp [render, bytesOf_wordOf]
    rw [wordsFrom, ih hrest, List.reverse_cons, render, List.flatMap_append, ← render, ← render,
      hword, List.append_assoc]
    rfl
  | case2 bytes done hshort =>
    match bytes with
    | [] => simp [wordsFrom]
    | [_] => simp at h
    | high :: low :: rest => exact (hshort high low rest rfl).elim

theorem parse_render (program : List UInt16) : parse (render program) = .ok program := by
  have heven : (render program).length % 2 = 0 := by
    rw [length_render]
    omega
  rw [parse, if_pos heven, wordsFrom_render]
  rfl

/-- A binary image holds the words that are written as its bytes, and all even numbers of bytes are
images. -/
theorem exists_parse {bytes : List UInt8} (h : bytes.length % 2 = 0) :
    ∃ program, parse bytes = .ok program ∧ render program = bytes := by
  refine ⟨wordsFrom [] bytes, if_pos h, ?_⟩
  rw [render_wordsFrom [] bytes h]
  rfl

theorem parse_odd {bytes : List UInt8} (h : bytes.length % 2 = 1) :
    parse bytes = .error (.oddLength bytes.length) := by
  apply if_neg
  omega

end Dcpu16.Image.Binary
