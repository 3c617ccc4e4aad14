import Dcpu16.Image.Binary
import Dcpu16.Path

/-! The format of an image file, which its name decides: text for the extensions `hex` and `txt` in
either case, and bytes for all else. -/

namespace Dcpu16.Image

/-- How an image is stored. -/
inductive Format where
  | hex
  | binary
  deriving DecidableEq, Repr

/-- The format of the image file at a path. -/
def Format.ofPath (path : List Char) : Format :=
  match (Path.extension? path).map Text.upperAscii with
  | some ['H', 'E', 'X'] => .hex
  | some ['T', 'X', 'T'] => .hex
  | _ => .binary

end Dcpu16.Image
