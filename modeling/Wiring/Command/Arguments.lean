/-! Arguments of a command line: options by long or short names, then values by position, then the
name of a command with arguments of its own. An option counts once the next argument settles what
it was given. -/
namespace Wiring

/-- Why a command line is not carried out. -/
inductive UsageError where
  | unknownArgument | unknownCommand
  /-- No command was named. -/
  | missingCommand
  /-- Nothing at all was given. -/
  | nothingGiven
  | missingArgument
  /-- A value is missing or not among those allowed. -/
  | invalidValue
  /-- A switch was given a value. -/
  | unneededValue
  /-- An option was given twice. -/
  | repeatedOption
  /-- Help was asked for. -/
  | helpAsked
  /-- The version was asked for. -/
  | versionAsked
  deriving DecidableEq, Repr, Inhabited

namespace UsageError

/-- An answer to a question is no error. -/
def exitCode : UsageError → Nat
  | .helpAsked => 0
  | .versionAsked => 0
  | _ => 2

def message : UsageError → String
  | .unknownArgument => "unexpected argument"
  | .unknownCommand => "unrecognized subcommand"
  | .missingCommand => "a subcommand is required"
  | .nothingGiven => "a subcommand is required"
  | .missingArgument => "a required argument is missing"
  | .invalidValue => "invalid value"
  | .unneededValue => "unexpected value"
  | .repeatedOption => "an option cannot be used multiple times"
  | .helpAsked => ""
  | .versionAsked => ""

end UsageError

/-- What an option does. -/
inductive OptionRole where
  | switch
  /-- Takes a value that satisfies a condition. -/
  | value (accepts : String → Bool)
  | help
  | version

structure OptionSpec where
  long : String
  short : Option Char := none
  role : OptionRole

/-- What a command takes. -/
structure ArgumentSpec where
  options : List OptionSpec
  /-- The name of the value by position, which is required. -/
  positional : Option String := none
  /-- The names of further commands, of which one is required. -/
  commands : List String := []

/-- Something given that is not settled yet. -/
inductive Pending where
  /-- An option without its value. -/
  | awaiting (option : OptionSpec)
  | given (option : OptionSpec) (value : String)
  | positional (name value : String)

/-- The arguments of one command as far as they have been read. -/
structure ArgumentState where
  settled : List (String × String) := []
  pending : Option Pending := none
  /-- After two hyphens every argument is a value by position. -/
  onlyPositional : Bool := false
  /-- Whether the value by position has been given. -/
  filled : Bool := false

namespace OptionSpec

/-- Whether the option takes a value. -/
def takesValue (o : OptionSpec) : Bool :=
  match o.role with
  | .value _ => true
  | _ => false

/-- Whether a value is allowed. -/
def accepts (o : OptionSpec) (value : String) : Bool :=
  match o.role with
  | .value accepts => accepts value
  | _ => true

end OptionSpec

namespace ArgumentState

/-- Adds an option with its value. -/
def settleOption (s : ArgumentState) (o : OptionSpec) (value : String) :
    Except UsageError ArgumentState :=
  if (s.settled.lookup o.long).isSome then .error .repeatedOption
  else if o.accepts value then .ok { s with settled := (o.long, value) :: s.settled }
  else .error .invalidValue

/-- Settles what is pending. No value by position is empty. -/
def settle (s : ArgumentState) : Except UsageError ArgumentState :=
  let settled := { s with pending := none }
  match s.pending with
  | none => .ok settled
  | some (.awaiting _) => .error .invalidValue
  | some (.given o value) => settled.settleOption o value
  | some (.positional name value) =>
    if value.isEmpty then .error .invalidValue
    else .ok { settled with settled := (name, value) :: s.settled }

/-- An option without value, or the first half of one with a value. -/
def start (s : ArgumentState) (o : OptionSpec) : Except UsageError ArgumentState := do
  let s ← s.settle
  match o.role with
  | .switch => s.settleOption o ""
  | .value _ => return { s with pending := some (.awaiting o) }
  | .help => .error .helpAsked
  | .version => .error .versionAsked

/-- An option with a value in the same argument. -/
def attach (s : ArgumentState) (o : OptionSpec) (value : String) :
    Except UsageError ArgumentState := do
  (← s.settle).settleOption o value

/-- Whether the next argument is the value of an option. -/
def isAwaiting (s : ArgumentState) : Bool :=
  match s.pending with
  | some (.awaiting _) => true
  | _ => false

end ArgumentState

namespace ArgumentSpec

/-- Options after a single hyphen. One that takes a value takes what follows it, with or without an
equals sign. -/
def readShort (spec : ArgumentSpec) (s : ArgumentState) :
    List Char → Except UsageError ArgumentState
  | [] => .ok s
  | c :: rest =>
    match spec.options.find? fun o => o.short == some c with
    | none => .error .unknownArgument
    | some o =>
      if o.takesValue then
        match rest with
        | [] => s.start o
        | '=' :: value => s.attach o (String.ofList value)
        | value => s.attach o (String.ofList value)
      else (s.start o).bind fun s => readShort spec s rest

/-- An option after two hyphens, with its value after an equals sign or without. -/
def readLong (spec : ArgumentSpec) (s : ArgumentState) (body : List Char) :
    Except UsageError ArgumentState :=
  let name := String.ofList (body.takeWhile (· != '='))
  match spec.options.find? fun o => o.long == name with
  | none => .error .unknownArgument
  | some o =>
    match body.dropWhile (· != '=') with
    | [] => s.start o
    | _ :: value => if o.takesValue then s.attach o (String.ofList value) else .error .unneededValue

/-- An argument that no position is left for. -/
def surplus (spec : ArgumentSpec) (s : ArgumentState) (argument : String) : UsageError :=
  if spec.commands.isEmpty || (s.onlyPositional && spec.commands.contains argument) then
    .unknownArgument
  else .unknownCommand

/-- A value by position. -/
def readPositional (spec : ArgumentSpec) (s : ArgumentState) (argument : String) :
    Except UsageError ArgumentState :=
  match spec.positional with
  | some name =>
    if s.filled then .error (spec.surplus s argument)
    else s.settle.map fun s =>
      { s with pending := some (.positional name argument), filled := true }
  | none => .error (spec.surplus s argument)

/-- One argument that names no command. -/
def readArgument (spec : ArgumentSpec) (s : ArgumentState) (argument : String) :
    Except UsageError ArgumentState :=
  if s.onlyPositional then spec.readPositional s argument
  else
    match argument.toList with
    | ['-', '-'] => .ok { s with onlyPositional := true }
    | '-' :: '-' :: body => spec.readLong s body
    | '-' :: c :: rest => spec.readShort s (c :: rest)
    | _ =>
      match s.pending with
      | some (.awaiting o) => .ok { s with pending := some (.given o argument) }
      | _ => spec.readPositional s argument

/-- Arguments up to the name of a command, which comes with the arguments after it. -/
def readAll (spec : ArgumentSpec) (s : ArgumentState) :
    List String → Except UsageError (ArgumentState × Option (String × List String))
  | [] => .ok (s, none)
  | argument :: rest =>
    if !s.onlyPositional && !s.isAwaiting && spec.commands.contains argument then
      .ok (s, some (argument, rest))
    else (spec.readArgument s argument).bind fun s => readAll spec s rest

/-- Settles the last argument and checks that nothing required is missing. -/
def finish (spec : ArgumentSpec) (s : ArgumentState) (hasCommand : Bool) :
    Except UsageError (List (String × String)) := do
  let s ← s.settle
  if !spec.commands.isEmpty && !hasCommand then
    .error (if s.settled.isEmpty then .nothingGiven else .missingCommand)
  else
    match spec.positional with
    | some name =>
      if (s.settled.lookup name).isSome then return s.settled else .error .missingArgument
    | none => return s.settled

end ArgumentSpec
end Wiring
