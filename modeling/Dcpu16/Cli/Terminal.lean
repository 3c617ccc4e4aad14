import Dcpu16.File
import Dcpu16.Host.Record
import Dcpu16.Pace.Clock

/-! What a command needs of the place where it runs, and how it reports a failure. -/

namespace Dcpu16.Cli

/-- Where a command runs: files, a clock, an output and a log. -/
structure Terminal (m : Type → Type) where
  files : Files m
  clock : Clock m
  print : String → m Unit
  log : Level → String → m Unit

/-- A failure: what could not be done and, one below the other, the reasons for it. -/
structure Failure where
  message : String
  causes : List String := []
  deriving DecidableEq, Repr

namespace Failure

/-- A cause behind its label; further lines of it stand below its first. -/
def indented (label : String) (cause : String) : String :=
  let margin := "\n" ++ String.ofList (List.replicate label.length ' ')
  label ++ margin.intercalate ((cause.toList.splitOn '\n').map String.ofList)

/-- The failure as text, without a line break at the end.  Several causes are numbered. -/
def text (f : Failure) : String :=
  let lines :=
    match f.causes with
    | [] => []
    | [cause] => ["", "Caused by:", indented "    " cause]
    | causes =>
      "" :: "Caused by:" :: causes.zipIdx.map fun (cause, i) =>
        indented (Text.padLeft ' ' 5 (toString i) ++ ": ") cause
  "\n".intercalate (("Error: " ++ f.message) :: lines)

end Failure

/-- How a command ends. -/
inductive Exit where
  | success
  /-- The arguments give no command. -/
  | misuse
  | failure (f : Failure)
  deriving DecidableEq, Repr

/-- The code that tells the system how a command has ended. -/
def Exit.code : Exit → UInt8
  | success => 0
  | failure _ => 1
  | misuse => 2

end Dcpu16.Cli
