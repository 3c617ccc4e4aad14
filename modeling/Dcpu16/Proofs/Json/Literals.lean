import Dcpu16.Json.Reading
import Dcpu16.Json.Writing
import Mathlib.Data.List.Basic

/-! String literals read back as what was written: every written character is read as one piece of a
literal. -/

namespace Dcpu16.Json

open Decimal (Numeral)

/-! ### Characters -/

/-- The piece stands for the character, whatever goes before and after. -/
def Piece.Is (p : Piece) (c : Char) : Prop :=
  ∀ done ps, joinPieces done (p :: ps) = joinPieces (c :: done) ps

theorem Piece.Is.char (c : Char) : (Piece.char c).Is c := fun _ _ => rfl

theorem Piece.Is.unit {c : Char} (h : c.toNat < 0x20) : (Piece.unit c.toNat).Is c := by
  intro done ps
  have hhigh : isHighHalf c.toNat = false := by simp [isHighHalf]; omega
  have hlow : isLowHalf c.toNat = false := by simp [isLowHalf]; omega
  rw [joinPieces.eq_def]
  simp [hhigh, hlow]

/-- A control character is written with two zeros and two more digits. -/
theorem toList_hex4_small : ∀ n < 0x20, (Text.hex4 n).toList =
    ['0', '0', (n / 16).digitChar, (n % 16).digitChar] := by decide

theorem digits_small : ∀ n < 0x20,
    (['0', '0', (n / 16).digitChar, (n % 16).digitChar].mapM (Text.digit? 16)).map
      (·.foldl (fun n d => n * 16 + d) 0) = some n := by decide

theorem scanString_unit {n : Nat} (h : n < 0x20) (done : List Piece) (rest : List Char) :
    scanString done (("\\u" ++ Text.hex4 n).toList ++ rest) =
      scanString (.unit n :: done) rest := by
  obtain ⟨ds, hds, hvalue⟩ := Option.map_eq_some_iff.mp (digits_small n h)
  rw [String.toList_append, toList_hex4_small n h]
  show scanString done
    ('\\' :: 'u' :: '0' :: '0' :: (n / 16).digitChar :: (n % 16).digitChar :: rest) = _
  rw [scanString, hds]
  show scanString (.unit (ds.foldl (fun n d => n * 16 + d) 0) :: done) rest = _
  rw [hvalue]

theorem scanString_char {c : Char} (hquote : c ≠ '"') (hslash : c ≠ '\\') (h : 0x20 ≤ c.toNat)
    (done : List Piece) (rest : List Char) :
    scanString done (c :: rest) = scanString (.char c :: done) rest := by
  rw [scanString.eq_def]
  split <;> simp_all [Nat.not_lt_of_le]

/-- A written character is read as a piece that stands for it. -/
theorem scanString_escape (c : Char) : ∃ p : Piece, p.Is c ∧ ∀ done rest,
    scanString done ((escape c).toList ++ rest) = scanString (p :: done) rest := by
  unfold escape
  split
  case h_8 hquote hslash _ _ _ _ _ =>
    split
    · next h => exact ⟨_, .unit h, scanString_unit h⟩
    · next h => exact ⟨_, .char c, fun done rest => by
        rw [String.toList_singleton]
        exact scanString_char hquote hslash (Nat.le_of_not_lt h) done rest⟩
  all_goals exact ⟨_, .char _, fun _ _ => rfl⟩

/-! ### Literals -/

theorem scanString_escapes (cs rest : List Char) : ∃ ps : List Piece,
    (∀ done, scanString done (cs.flatMap (escape · |>.toList) ++ '"' :: rest) =
      some (done.reverse ++ ps, rest)) ∧
    ∀ done, joinPieces done ps = some (done.reverse ++ cs) := by
  induction cs with
  | nil => exact ⟨[], fun done => by rw [List.append_nil]; rfl, fun done => by simp [joinPieces]⟩
  | cons c cs ih =>
    obtain ⟨ps, hscan, hjoin⟩ := ih
    obtain ⟨p, hp, hescape⟩ := scanString_escape c
    refine ⟨p :: ps, fun done => ?_, fun done => ?_⟩
    · rw [List.flatMap_cons, List.append_assoc, hescape, hscan, List.reverse_cons,
        List.append_assoc]
      rfl
    · rw [hp, hjoin, List.reverse_cons, List.append_assoc]
      rfl

theorem toList_foldl_escape (cs : List Char) (out : String) :
    (cs.foldl (fun out c => out ++ escape c) out).toList =
      out.toList ++ cs.flatMap (escape · |>.toList) := by
  induction cs generalizing out with
  | nil => simp
  | cons c cs ih => rw [List.foldl_cons, ih, String.toList_append, List.append_assoc,
      List.flatMap_cons]

/-- The text of a literal starts with a mark, behind which its contents are read up to the mark that
closes it. -/
theorem scanString_literal (s : Contents) (rest : List Char) :
    ∃ cs ps, (literal s).toList ++ rest = '"' :: cs ∧ scanString [] cs = some (ps, rest) ∧
      contentsOf ps = s := by
  cases s with
  | none => exact ⟨_, [.unit 0xD800], rfl, rfl, rfl⟩
  | some s =>
    obtain ⟨ps, hscan, hjoin⟩ := scanString_escapes s.toList rest
    refine ⟨_, ps, ?_, hscan [], ?_⟩
    · simp [literal, String.foldl_eq_foldl_toList, toList_foldl_escape]
    · simp [contentsOf, hjoin]

/-! ### Numerals -/

/-- The text of the numeral is read as this numeral. -/
def Readable (n : Numeral) : Prop :=
  (∀ c ∈ n.text.toList, isNumberPart c = true) ∧ numeralOf? n.text.toList = some n

theorem toNat?_ofNat (n : Nat) : (Numeral.ofNat n).toNat? = some n := by
  simp [Numeral.toNat?, Numeral.ofNat, Numeral.value]

end Dcpu16.Json
