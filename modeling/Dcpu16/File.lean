/-! Files: why one cannot be read or written, and what a program needs of their place. -/

namespace Dcpu16

/-- Why a file cannot be read or written. -/
inductive FileError where
  | missing
  | directory
  /-- The path goes on behind a file as if that were a directory. -/
  | notDirectory
  | nameTooLong
  /-- The file was to be read as text, and its bytes are no UTF-8. -/
  | notText
  /-- Any other reason, as the system states it. -/
  | other (reason : String)
  deriving DecidableEq, Repr

def FileError.message : FileError → String
  | missing => "No such file or directory (os error 2)"
  | directory => "Is a directory (os error 21)"
  | notDirectory => "Not a directory (os error 20)"
  | nameTooLong => "File name too long (os error 36)"
  | notText => "stream did not contain valid UTF-8"
  | other reason => reason

/-- The text of a file's bytes. -/
def decodeText (bytes : ByteArray) : Except FileError String :=
  match String.fromUTF8? bytes with
  | some text => .ok text
  | none => .error .notText

/-- A place that keeps files under paths. -/
structure Files (m : Type → Type) where
  read : String → m (Except FileError ByteArray)
  write : String → ByteArray → m (Except FileError Unit)

namespace Files

variable {m : Type → Type} [Monad m]

/-- The text of a file. -/
def readText (files : Files m) (path : String) : m (Except FileError String) := do
  return (← files.read path) >>= decodeText

end Files

end Dcpu16
