import Dcpu16.Image.Hex

/-! Program images as bytes: each word is two bytes, the high one first. -/

namespace Dcpu16.Image.Binary

/-- The two bytes of a word. -/
def bytesOf (w : UInt16) : List UInt8 := [(w >>> 8).toUInt8, w.toUInt8]

/-- The word of a high and a low byte. -/
def wordOf (high low : UInt8) : UInt16 := (high.toUInt16 <<< 8) ||| low.toUInt16

/-- The bytes of a program. -/
def render (program : List UInt16) : List UInt8 := program.flatMap bytesOf

/-- The words of an even number of bytes, after those in `done`, which are in reverse. -/
def wordsFrom (done : List UInt16) : List UInt8 → List UInt16
  | high :: low :: bytes => wordsFrom (wordOf high low :: done) bytes
  | _ => done.reverse

/-- The words of a binary image. -/
def parse (bytes : List UInt8) : Except Error (List UInt16) :=
  if bytes.length % 2 = 0 then .ok (wordsFrom [] bytes) else .error (.oddLength bytes.length)

end Dcpu16.Image.Binary
