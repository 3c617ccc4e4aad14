import Dcpu16.Assembly.Program
import Dcpu16.Cli.Command
import Dcpu16.Cli.Terminal
import Dcpu16.Disassembly.Listing
import Dcpu16.Host.Registry
import Dcpu16.Host.Schedule
import Dcpu16.Image.Store
import Dcpu16.Snapshot

/-! Execution of commands. -/

namespace Dcpu16.Cli

/-- The line that `version` prints. -/
def version : String := "dcpu-emu 0.1.0"

variable {m : Type → Type} [Monad m]

/-- A computation that may fail. -/
abbrev Attempt (m : Type → Type) := ExceptT Failure m

/-- The result of a step, whose error is turned into a failure. -/
def attempt {ε α : Type} (onError : ε → Failure) (r : Except ε α) : Attempt m α :=
  match r with
  | .ok a => pure a
  | .error e => throw (onError e)

/-- A failure with one cause. -/
def because (message cause : String) : Failure := { message, causes := [cause] }

/-- The causes that a fault has below its own message. -/
def causesOf : Fault → List String
  | .decode e => [e.message]
  | .memory e => [e.message]
  | .unknownRegister _ => []

/-- The causes that an error of a host has below its own message. -/
def hostCauses : HostError → List String
  | .machine e => causesOf e
  | _ => []

namespace Terminal

/-- Prints a line. -/
def printLine (t : Terminal m) (line : String) : Attempt m Unit := t.print (line ++ "\n")

/-- Logs a line of no special weight. -/
def note (t : Terminal m) (line : String) : Attempt m Unit := t.log .info line

/-- Whether a path names a source text. -/
def isSource (path : String) : Bool :=
  match (Path.extension? path.toList).map String.ofList with
  | some "asm" | some "dasm" | some "dasm16" => true
  | _ => false

/-- The text of a source file. -/
def readSource (t : Terminal m) (path : String) : Attempt m String := do
  attempt (fun e => because s!"failed to read {Text.escaped path}" e.message)
    (← t.files.readText path)

/-- The words of an image file. -/
def loadImage (t : Terminal m) (path : String) : Attempt m (List UInt16) := do
  attempt (fun e => because s!"failed to load {Text.escaped path}" e.message)
    (← Image.load (m := m) t.files path)

/-- The words of a program, which is assembled first if it is source text. -/
def loadProgram (t : Terminal m) (path : String) : Attempt m (List UInt16) := do
  let shown := Text.escaped path
  if isSource path then
    let program ← attempt (fun e => because s!"failed to assemble {shown}" e.message)
      (Assembly.assemble (← t.readSource path).toList)
    t.note s!"assembled {program.length} words from {shown}"
    return program
  else
    let program ← t.loadImage path
    t.note s!"loaded {program.length} words from {shown}"
    return program

/-! ### Running a program -/

/-- The settings of a run: those of the file or the usual ones, changed as the options say. -/
def settingsOf (t : Terminal m) (o : RunOptions) : Attempt m Settings := do
  let s ←
    match o.settings with
    | none => pure {}
    | some path =>
      attempt (fun e => because s!"failed to load config {Text.escaped path}" e.message)
        (← Settings.load (m := m) t.files path)
  let s := { s with frequency := o.frequency.getD s.frequency
                    baseAddress := o.base.getD s.baseAddress }
  let s := o.observers.foldl Settings.addObserver s
  let s :=
    match o.maxCycles with
    | some n => { s with maxCycles := some n }.addObserver "cycle-limit"
    | none => s
  attempt (fun e => { message := e.message }) s.validate
  return s

/-- The machine with a program in its memory, about to run it. -/
def prepare (s : Settings) (program : List UInt16) : Attempt m Machine := do
  let machine ← attempt (fun e => { message := e.message, causes := causesOf e })
    (Machine.withSize s.memorySize.toNat)
  let machine ← attempt (fun e => { message := "failed to load program"
                                    causes := e.message :: causesOf e })
    (machine.load s.baseAddress program)
  return { machine with registers := { machine.registers with pc := s.baseAddress } }

/-- The result of a run as text. -/
def resultText (s : RunSummary) (machine : Machine) : String :=
  let hz := Decimal.fixed 1 (frequencyOf s.ticks s.elapsed)
  let stopped := match s.reason with
    | .signal => "interrupted"
    | .observer name => s!"by {name}"
  s!"\n━━━ Result ━━━\nCycles:    {s.cycles.toNat}\nElapsed:   {s.elapsed.text} ({hz} Hz)\n" ++
    s!"Stopped:   {stopped}\n{machine.registers.line}"

/-- Runs a program and prints the result. -/
def run (t : Terminal m) (path : String) (o : RunOptions) : Attempt m Unit := do
  let s ← t.settingsOf o
  let program ← t.loadProgram path
  if program.isEmpty then throw { message := s!"no words to execute in {Text.escaped path}" }
  let machine ← prepare s program
  let fromHost (e : HostError) : Failure := { message := e.message, causes := hostCauses e }
  let observers ← attempt fromHost (Registry.builtins.createAll s)
  if observers.isEmpty then
    t.log .warn "no observers attached; only Ctrl-C will stop the emulator"
  let r ← attempt fromHost (Run.start machine s.frequency s.reportInterval.toNat observers)
  let r ← Run.toEnd (m := m) t.clock (fun x => t.log x.event.level x.event.message) r
  let fatal := "emulator stopped with a fatal error"
  let summary ←
    match r.result? with
    | some result =>
      attempt (fun e => { message := fatal, causes := e.message :: hostCauses e }) result
    | none => throw { message := fatal }
  t.printLine (resultText summary r.machine)
  match o.dump with
  | none => return
  | some path =>
    let shown := Text.escaped path
    attempt (fun e => because s!"failed to write {shown}" e.message)
      (← t.files.write path r.machine.toValue.pretty.toUTF8)
    t.printLine s!"✓ State written to {shown}"

/-! ### Images -/

/-- Assembles a source text to an image, by default beside it. -/
def asm (t : Terminal m) (source : String) (output : Option String) : Attempt m Unit := do
  let output := output.getD (String.ofList (Path.withExtension source.toList "bin".toList))
  let shown := Text.escaped output
  let program ← attempt (fun e => because "assembly failed" e.message)
    (Assembly.assemble (← t.readSource source).toList)
  t.printLine s!"✓ Assembled {program.length} words"
  attempt (fun e => because s!"failed to write {shown}" e.message)
    (← Image.save (m := m) t.files output program)
  t.printLine s!"✓ Saved to {shown}"

/-- Prints the listing of an image. -/
def disasm (t : Terminal m) (path : String) : Attempt m Unit := do
  t.print (Listing.render (← t.loadImage path))

/-! ### Timing -/

/-- The line on one interval of a timing. -/
def timingLine (s : Tally.Summary) : String :=
  s!"Took {s.total.text} total, with an average of {s.average.text} " ++
    s!"({Decimal.fixed 0 s.maxFrequency} Hz possible)"

/-- Ticks all machines for `n` more cycles.  A sum of times too long for a duration, at which a
program would panic, leaves the tally as it is. -/
def cycle (t : Terminal m) (pacer : Pacer) (n : Nat) (tally : Tally) (machines : List Machine) :
    Attempt m Unit := do
  match n with
  | 0 => return
  | n + 1 =>
    let start ← t.clock.now
    let machines ← attempt (fun e => { message := e.message, causes := causesOf e })
      (machines.mapM fun machine => machine.tick.map Prod.snd)
    let elapsed := Duration.ofNanos ((← t.clock.now) - start)
    let tally ←
      match tally.record elapsed with
      | some (tally, some summary) =>
        t.printLine (timingLine summary)
        pure tally
      | some (tally, none) => pure tally
      | none => pure tally
    t.clock.sleep (pacer.remaining elapsed)
    cycle t pacer n tally machines

/-- Ticks many machines at once and reports on timing. -/
def bench (t : Terminal m) (o : BenchOptions) : Attempt m Unit := do
  let program ←
    match o.program with
    | some path => t.loadProgram path
    | none => pure []
  let machine ←
    if o.cores = 0 then pure .start
    else
      attempt (fun e => { message := e.message, causes := causesOf e })
        (Machine.start.load 0 program)
  match Pacer.ofFrequency? o.frequency with
  | none => throw { message := (HostError.invalidFrequency o.frequency).message }
  | some pacer =>
    t.note s!"ticking {o.cores} cores at {Decimal.messageText o.frequency} Hz"
    let cycles := o.cycles.getD Run.patience
    t.cycle pacer cycles (.ofInterval o.reportInterval) (List.replicate o.cores machine)
    t.printLine s!"✓ Ran {cycles} cycles on {o.cores} cores"

/-! ### Commands -/

/-- Executes a command. -/
def execute (t : Terminal m) : Command → Attempt m Unit
  | .run program options => t.run program options
  | .asm source output => t.asm source output
  | .disasm image => t.disasm image
  | .bench options => t.bench options
  | .observers => Registry.builtins.names.forM t.printLine
  | .version => t.printLine version

/-- Executes the command that arguments give. -/
def interpret (t : Terminal m) (args : List String) : m Exit := do
  match Command.parse? args with
  | none => return .misuse
  | some command =>
    match ← (t.execute command).run with
    | .ok () => return .success
    | .error f => return .failure f

end Terminal

end Dcpu16.Cli
