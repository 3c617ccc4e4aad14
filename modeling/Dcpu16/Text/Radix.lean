/-! Whole numbers in a base up to 36: reading them with an optional sign, and writing words and
addresses in hexadecimal. -/

namespace Dcpu16.Text

/-- The value of an ASCII digit or letter as a digit of the given base. -/
def digit? (base : Nat) (c : Char) : Option Nat :=
  let n := c.toNat
  let v :=
    if 0x30 ≤ n && n ≤ 0x39 then n - 0x30
    else if 0x61 ≤ n && n ≤ 0x7A then n - 0x61 + 10
    else if 0x41 ≤ n && n ≤ 0x5A then n - 0x41 + 10
    else base
  if v < base then some v else none

/-- The value of one or more digits, most significant first. -/
def readNat? (base : Nat) (cs : List Char) : Option Nat :=
  if cs.isEmpty then none
  else (cs.mapM (digit? base)).map (·.foldl (fun n d => n * base + d) 0)

/-- The value of one or more digits after an optional plus sign. -/
def readUnsigned? (base : Nat) : List Char → Option Nat
  | '+' :: cs => readNat? base cs
  | cs => readNat? base cs

/-- The value of one or more digits after an optional sign. -/
def readSigned? (base : Nat) : List Char → Option Int
  | '-' :: cs => (readNat? base cs).map fun n => -(n : Int)
  | cs => (readUnsigned? base cs).map Int.ofNat

/-- Lower-case hexadecimal digits, without leading zeros. -/
def hex (n : Nat) : String := String.ofList (Nat.toDigits 16 n)

/-- Lower-case hexadecimal digits, at least four of them. -/
def hex4 (n : Nat) : String :=
  let ds := Nat.toDigits 16 n
  String.ofList (List.replicate (4 - ds.length) '0' ++ ds)

/-- `s` with copies of `fill` before it, up to `width` characters. -/
def padLeft (fill : Char) (width : Nat) (s : String) : String :=
  String.ofList (List.replicate (width - s.length) fill) ++ s

/-- `s` with blanks after it, up to `width` characters. -/
def padRight (width : Nat) (s : String) : String :=
  s ++ String.ofList (List.replicate (width - s.length) ' ')

end Dcpu16.Text
