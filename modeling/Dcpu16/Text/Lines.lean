/-! Lines of a text.  A line ends at a line feed; a carriage return directly before the line feed
belongs to the line end, and a text that ends with a line feed has no further, empty line. -/

namespace Dcpu16.Text

/-- `cs` without one carriage return at its end. -/
def dropReturn (cs : List Char) : List Char :=
  if cs.getLast? = some '\r' then cs.dropLast else cs

/-- The lines of a text, without their line ends. -/
def lines (cs : List Char) : List (List Char) :=
  let pieces := cs.splitOn '\n'
  let unended := pieces.getLast?.getD []
  pieces.dropLast.map dropReturn ++ if unended.isEmpty then [] else [unended]

@[simp] theorem lines_nil : lines [] = [] := rfl

end Dcpu16.Text
