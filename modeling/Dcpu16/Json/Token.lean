import Dcpu16.Json.Value
import Dcpu16.Text.Radix

/-! The tokens of JSON text.  Blanks, tabs and line ends separate tokens.  A string is made of
characters and of escapes, some of which give UTF-16 units; a number is a run of the characters that
numbers are made of, and must be a numeral as a whole. -/

namespace Dcpu16.Json

open Decimal (Numeral)

/-- A token: a mark of structure, or a value without structure. -/
inductive Token where
  | openObject | closeObject | openArray | closeArray | comma | colon
  | scalar (v : Value)
  deriving Repr

/-- White space between tokens. -/
def isSpace (c : Char) : Bool := c == ' ' || c == '\n' || c == '\t' || c == '\r'

/-- The mark of structure that a character is. -/
def Token.ofMark? : Char → Option Token
  | '\x7b' => some openObject
  | '\x7d' => some closeObject
  | '[' => some openArray
  | ']' => some closeArray
  | ',' => some comma
  | ':' => some colon
  | _ => none

/-- A part of a string literal. -/
inductive Piece where
  | char (c : Char)
  /-- A UTF-16 unit that an escape gives. -/
  | unit (n : Nat)
  deriving DecidableEq, Repr

/-- The unit is the first half of a surrogate pair. -/
def isHighHalf (n : Nat) : Bool := 0xD800 ≤ n && n < 0xDC00

/-- The unit is the second half of a surrogate pair. -/
def isLowHalf (n : Nat) : Bool := 0xDC00 ≤ n && n < 0xE000

/-- The characters of a literal, after those in `done`, which are in reverse. -/
def joinPieces (done : List Char) : List Piece → Option (List Char)
  | [] => some done.reverse
  | .char c :: ps => joinPieces (c :: done) ps
  | .unit n :: ps =>
    if isHighHalf n then
      match ps with
      | .unit m :: ps =>
        if isLowHalf m then
          joinPieces (.ofNat (0x10000 + (n - 0xD800) * 0x400 + (m - 0xDC00)) :: done) ps
        else none
      | _ => none
    else if isLowHalf n then none
    else joinPieces (.ofNat n :: done) ps

/-- The text of a literal. -/
def contentsOf (pieces : List Piece) : Contents := (joinPieces [] pieces).map String.ofList

/-- The character of a one-letter escape. -/
def escaped? : Char → Option Char
  | '"' => some '"'
  | '\\' => some '\\'
  | '/' => some '/'
  | 'b' => some '\x08'
  | 'f' => some '\x0c'
  | 'n' => some '\n'
  | 'r' => some '\r'
  | 't' => some '\t'
  | _ => none

/-- The rest of a string literal after its opening mark: its pieces, after those in `done`, and the
text behind its closing mark. -/
def scanString (done : List Piece) : List Char → Option (List Piece × List Char)
  | '"' :: cs => some (done.reverse, cs)
  | '\\' :: 'u' :: a :: b :: c :: d :: cs =>
    match [a, b, c, d].mapM (Text.digit? 16) with
    | some ds => scanString (.unit (ds.foldl (fun n d => n * 16 + d) 0) :: done) cs
    | none => none
  | '\\' :: c :: cs =>
    match escaped? c with
    | some e => scanString (.char e :: done) cs
    | none => none
  | c :: cs => if c.toNat < 0x20 then none else scanString (.char c :: done) cs
  | [] => none

/-- A character that occurs in numbers. -/
def isNumberPart (c : Char) : Bool :=
  c.isDigit || c == '-' || c == '+' || c == '.' || c == 'e' || c == 'E'

/-- The fraction of a numeral, from its point on, and what follows it. -/
def fractionOf? : List Char → Option (List Char × List Char)
  | '.' :: cs =>
    let ds := cs.takeWhile Char.isDigit
    if ds.isEmpty then none else some (ds, cs.dropWhile Char.isDigit)
  | cs => some ([], cs)

/-- The numeral that a run of characters is; it has no needless zero in front. -/
def numeralOf? (run : List Char) : Option Numeral := do
  let (negative, cs) := match run with
    | '-' :: cs => (true, cs)
    | cs => (false, cs)
  let whole := cs.takeWhile Char.isDigit
  if whole.isEmpty || (whole.head? == some '0' && 1 < whole.length) then none
  let (fraction, cs) ← fractionOf? (cs.dropWhile Char.isDigit)
  let exponent ← Numeral.readExponent? cs
  return { negative, whole, fraction, exponent }

/-- The value that a word is. -/
def wordOf? (run : List Char) : Option Value :=
  match String.ofList run with
  | "null" => some .null
  | "true" => some (.bool true)
  | "false" => some (.bool false)
  | _ => none

theorem length_scanString {done : List Piece} {cs rest : List Char} {ps : List Piece}
    (h : scanString done cs = some (ps, rest)) : rest.length < cs.length := by
  fun_induction scanString done cs with
  | case1 => simp_all
  | case2 done a b c d cs ds _ ih => have := ih h; simp only [List.length_cons]; omega
  | case3 => simp at h
  | case4 done c cs _ e _ ih => have := ih h; simp only [List.length_cons]; omega
  | case5 => simp at h
  | case6 => simp at h
  | case7 done c cs _ _ _ _ ih => have := ih h; simp only [List.length_cons]; omega
  | case8 => simp at h

theorem length_dropWhile_lt {p : Char → Bool} {c : Char} {cs : List Char} (h : p c = true) :
    ((c :: cs).dropWhile p).length < (c :: cs).length := by
  rw [List.dropWhile_cons_of_pos h]
  exact Nat.lt_succ_of_le (List.dropWhile_sublist p).length_le

/-- The tokens of a text, after those in `done`, which are in reverse. -/
def scanFrom (done : List Token) : List Char → Option (List Token)
  | [] => some done.reverse
  | c :: cs =>
    if isSpace c then scanFrom done cs
    else if c == '"' then
      match _h : scanString [] cs with
      | some (ps, rest) => scanFrom (.scalar (.string (contentsOf ps)) :: done) rest
      | none => none
    else if _h : isNumberPart c && c != 'e' && c != 'E' then
      match numeralOf? ((c :: cs).takeWhile isNumberPart) with
      | some n => scanFrom (.scalar (.number n) :: done) ((c :: cs).dropWhile isNumberPart)
      | none => none
    else if _h : c.isAlpha then
      match wordOf? ((c :: cs).takeWhile Char.isAlpha) with
      | some v => scanFrom (.scalar v :: done) ((c :: cs).dropWhile Char.isAlpha)
      | none => none
    else
      match Token.ofMark? c with
      | some t => scanFrom (t :: done) cs
      | none => none
termination_by cs => cs.length
decreasing_by
  · simp
  · have := length_scanString _h
    simp only [List.length_cons]
    omega
  · simp only [Bool.and_eq_true] at _h
    exact length_dropWhile_lt _h.1.1
  · exact length_dropWhile_lt _h
  · simp

/-- The tokens of a text. -/
def scan (cs : List Char) : Option (List Token) := scanFrom [] cs

end Dcpu16.Json
