import Dcpu16.Text.Upper

/-! File names in paths.  Slashes separate the parts of a path; empty parts and single dots do not
count.  An extension is what follows the last dot of a file name, unless that dot comes first. -/

namespace Dcpu16.Path

/-- The file name at the end of a path, if it ends in one. -/
def fileName? (path : List Char) : Option (List Char) :=
  match ((path.splitOn '/').filter fun part => part ≠ [] && part ≠ ['.']).getLast? with
  | some ['.', '.'] => none
  | name => name

/-- The extension of a file name. -/
def extensionOf? (name : List Char) : Option (List Char) :=
  let tail := (name.reverse.takeWhile (· != '.')).reverse
  if tail.length + 1 < name.length then some tail else none

/-- The extension of the file name at the end of a path. -/
def extension? (path : List Char) : Option (List Char) := (fileName? path).bind extensionOf?

/-- A path to a file with the extension replaced, or added if it has none. -/
def withExtension (path extension : List Char) : List Char :=
  match extension? path with
  | some old => path.take (path.length - old.length) ++ extension
  | none => path ++ '.' :: extension

end Dcpu16.Path
