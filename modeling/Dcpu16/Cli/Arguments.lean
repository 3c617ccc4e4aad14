/-! The arguments of a command.  An option takes a value, which follows it or is attached to it; two
hyphens alone end the options; all else are operands. -/

namespace Dcpu16.Cli

/-- The names of an option. -/
structure OptionName where
  long : String
  short : Option Char := none
  deriving DecidableEq, Repr

/-- The options and operands of a command, in their order. -/
structure Arguments where
  /-- The values of options, by the option's long name. -/
  options : List (String × String) := []
  operands : List String := []
  deriving DecidableEq, Repr

namespace Arguments

/-- What a single argument is. -/
inductive Piece where
  /-- The rest are operands. -/
  | endOfOptions
  /-- An option with its value attached. -/
  | option (long value : String)
  /-- An option whose value is to follow. -/
  | open (long : String)
  | operand
  /-- No option has this name. -/
  | unknown
  deriving DecidableEq, Repr

/-- An option of this name, with the value attached to it. -/
def attached (name : Option OptionName) (value : Option (List Char)) : Piece :=
  match name, value with
  | none, _ => .unknown
  | some name, some value => .option name.long (String.ofList value)
  | some name, none => .open name.long

/-- Tells what an argument is. -/
def classify (names : List OptionName) (arg : String) : Piece :=
  match arg.toList with
  | ['-', '-'] => .endOfOptions
  | '-' :: '-' :: cs =>
    let long := String.ofList (cs.takeWhile (· != '='))
    attached (names.find? fun n => n.long == long)
      (match cs.dropWhile (· != '=') with
      | _ :: value => some value
      | [] => none)
  | '-' :: c :: cs =>
    attached (names.find? fun n => n.short == some c)
      (match cs with
      | [] => none
      | '=' :: value => some value
      | value => some value)
  | _ => .operand

/-- Whether an argument can be the value of the option before it. -/
def isValue (names : List OptionName) (arg : String) : Bool := classify names arg = .operand

/-- Adds an option and its value in front. -/
def withOption (long value : String) (a : Arguments) : Arguments :=
  { a with options := (long, value) :: a.options }

/-- The options and operands of a list of arguments; no option may be unknown or lack its value. -/
def parse? (names : List OptionName) : List String → Option Arguments
  | [] => some {}
  | arg :: rest =>
    match classify names arg with
    | .endOfOptions => some { operands := rest }
    | .option long value => (parse? names rest).map (withOption long value)
    | .open long =>
      match rest with
      | value :: rest =>
        if isValue names value then (parse? names rest).map (withOption long value) else none
      | [] => none
    | .operand => (parse? names rest).map fun a => { a with operands := arg :: a.operands }
    | .unknown => none

/-- The values of an option. -/
def values (a : Arguments) (long : String) : List String :=
  (a.options.filter (·.1 == long)).map Prod.snd

/-- The value of an option that may be given once, as `read?` takes it. -/
def single? {α : Type} (a : Arguments) (long : String) (read? : String → Option α) :
    Option (Option α) :=
  match a.values long with
  | [] => some none
  | [value] => (read? value).map some
  | _ => none

end Arguments

end Dcpu16.Cli
