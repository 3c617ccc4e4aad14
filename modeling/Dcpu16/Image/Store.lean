import Dcpu16.File
import Dcpu16.Image.Format

/-! Image files: loading and saving a program in the format that the path decides. -/

namespace Dcpu16.Image

/-- Why an image cannot be loaded or saved. -/
inductive StoreError where
  | file (e : FileError)
  | content (e : Error)
  deriving DecidableEq, Repr

def StoreError.message : StoreError → String
  | file e => s!"I/O error: {e.message}"
  | content e => e.message

/-- The words of an image file with this content. -/
def decode (format : Format) (bytes : ByteArray) : Except StoreError (List UInt16) :=
  match format with
  | .hex =>
    match decodeText bytes with
    | .ok text => (Hex.parse text.toList).mapError .content
    | .error e => .error (.file e)
  | .binary => (Binary.parse bytes.toList).mapError .content

/-- The content of an image file that holds these words. -/
def encode (format : Format) (program : List UInt16) : ByteArray :=
  match format with
  | .hex => (Hex.render program).toUTF8
  | .binary => ⟨(Binary.render program).toArray⟩

variable {m : Type → Type} [Monad m]

/-- Loads an image. -/
def load (files : Files m) (path : String) : m (Except StoreError (List UInt16)) := do
  match ← files.read path with
  | .ok bytes => return decode (.ofPath path.toList) bytes
  | .error e => return .error (.file e)

/-- Saves an image. -/
def save (files : Files m) (path : String) (program : List UInt16) :
    m (Except StoreError Unit) := do
  return (← files.write path (encode (.ofPath path.toList) program)).mapError .file

end Dcpu16.Image
