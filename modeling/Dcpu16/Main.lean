import Dcpu16.Cli.Execution

/-! The program: commands executed on the files, the clock and the streams of the system. -/

namespace Dcpu16

/-- Why a file operation of the system has failed. -/
def fileError (e : IO.Error) : FileError :=
  match e with
  | .noFileOrDirectory .. => .missing
  | .permissionDenied _ code _ => .other s!"Permission denied (os error {code})"
  | .inappropriateType _ 21 _ => .directory
  | .inappropriateType _ 20 _ => .notDirectory
  | .invalidArgument _ 36 _ => .nameTooLong
  | e => .other (toString e)

/-- The result of a file operation of the system. -/
def fileResult {α : Type} (x : IO α) : IO (Except FileError α) := do
  try return .ok (← x)
  catch e => return .error (fileError e)

/-- Waits for whole milliseconds in sleep and for the rest awake. -/
def sleepFor (d : Duration) : IO Unit := do
  let deadline := (← IO.monoNanosNow) + d.nanos
  IO.sleep (UInt32.ofNat (min (d.nanos / 1000000) 0xFFFFFFFF))
  while (← IO.monoNanosNow) < deadline do pure ()

/-- The terminal of the system.  The log goes to the error stream. -/
def terminal (logs : Bool) : Cli.Terminal IO where
  files :=
    { read := fun path => fileResult (IO.FS.readBinFile path)
      write := fun path bytes => fileResult (IO.FS.writeBinFile path bytes) }
  clock := { now := IO.monoNanosNow, sleep := sleepFor }
  print s := do
    let out ← IO.getStdout
    out.putStr s
    out.flush
  log level line := if logs then IO.eprintln s!"{level.name} {line}" else pure ()

/-- A summary of the commands. -/
def usage : String :=
  "Usage: dcpu-emu run [-c FILE] [--hz HZ] [-o NAME]... [-m CYCLES] [-b ADDRESS] [--dump FILE] FILE
       dcpu-emu asm [-o FILE] SOURCE
       dcpu-emu disasm IMAGE
       dcpu-emu bench [--cores N] [--hz HZ] [--cycles N] [--report-interval N] [PROGRAM]
       dcpu-emu observers
       dcpu-emu --version"

end Dcpu16

/-- Executes the command that the arguments give; the log is off if the environment says so. -/
def main (args : List String) : IO UInt32 := do
  let logs := (← IO.getEnv "DCPU_LOG") != some "off"
  let exit ← (Dcpu16.terminal logs).interpret args
  match exit with
  | .success => pure ()
  | .misuse => IO.eprintln Dcpu16.usage
  | .failure f => IO.eprintln f.text
  return exit.code.toUInt32
