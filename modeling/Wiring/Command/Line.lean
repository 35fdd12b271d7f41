import Wiring.Command.Arguments
import Wiring.Report.Format
/-! The commands of the program and their command lines. -/
namespace Wiring

inductive Command where
  /-- Analyze a model and print a report. -/
  | check (model : String) (format : Option ReportFormat) (denyWarnings : Bool)
  /-- Write the code for every valid registration of a model. -/
  | generate (model : String) (output : Option String) (denyWarnings : Bool)
  /-- List the kinds of diagnostics. -/
  | diagnostics
  deriving DecidableEq, Repr, Inhabited

structure CommandLine where
  /-- Path of a configuration file. -/
  config : Option String
  command : Command
  deriving DecidableEq, Repr, Inhabited

namespace CommandLine

def formatNames : List (String × ReportFormat) := [("human", .human), ("json", .json)]

/-- A path is any text that is not empty. -/
def isPath (text : String) : Bool := !text.isEmpty

def helpOption : OptionSpec := ⟨"help", some 'h', .help⟩

/-- The option that may stand before and after the name of a command. -/
def configOption : OptionSpec := ⟨"config", some 'c', .value isPath⟩

def denyWarningsOption : OptionSpec := ⟨"deny-warnings", none, .switch⟩

def formatOption : OptionSpec :=
  ⟨"format", none, .value fun text => (formatNames.lookup text).isSome⟩

def outputOption : OptionSpec := ⟨"output", some 'o', .value isPath⟩

/-- The name of the model's position. -/
def modelName : String := "MODEL"

/-- The arguments of each command. -/
def commandSpecs : List (String × ArgumentSpec) :=
  [("check",
    ⟨[configOption, formatOption, denyWarningsOption, helpOption], some modelName, []⟩),
   ("generate",
    ⟨[configOption, outputOption, denyWarningsOption, helpOption], some modelName, []⟩),
   ("diagnostics", ⟨[configOption, helpOption], none, []⟩)]

/-- The command that shows the help of others. -/
def helpCommand : String := "help"

/-- The arguments before the name of a command. -/
def rootSpec : ArgumentSpec :=
  { options := [configOption, helpOption, ⟨"version", some 'V', .version⟩]
    commands := commandSpecs.map Prod.fst ++ [helpCommand] }

/-- What the help command answers: it knows the commands, and none below them. -/
def answerHelp : List String → UsageError
  | [] => .helpAsked
  | [name] => if rootSpec.commands.contains name then .helpAsked else .unknownCommand
  | _ => .unknownCommand

/-- What is printed when help is asked for. -/
def helpText : String :=
  "Compile-time analysis and code generation for service registrations\n\n"
    ++ "Usage: wirebind [OPTIONS] <COMMAND>\n\n"
    ++ "Commands:\n"
    ++ "  check <MODEL> [--format human|json] [--deny-warnings]\n"
    ++ "  generate <MODEL> [-o <OUTPUT>] [--deny-warnings]\n"
    ++ "  diagnostics\n"
    ++ "  help\n\n"
    ++ "Options:\n"
    ++ "  -c, --config <CONFIG>\n"
    ++ "  -h, --help\n"
    ++ "  -V, --version\n"

def versionText : String := "wirebind 0.1.0\n"

/-- The command of settled arguments. -/
def commandOf (name : String) (settled : List (String × String)) : Command :=
  let model := (settled.lookup modelName).getD ""
  let denyWarnings := (settled.lookup denyWarningsOption.long).isSome
  if name == "check" then
    let format := (settled.lookup formatOption.long).bind fun text => formatNames.lookup text
    .check model format denyWarnings
  else if name == "generate" then .generate model (settled.lookup outputOption.long) denyWarnings
  else .diagnostics

/-- Reads the arguments after the name of the program. A configuration file named after the
command wins over one named before it. -/
def parse (arguments : List String) : Except UsageError CommandLine := do
  match ← rootSpec.readAll {} arguments with
  | (root, none) =>
    let _ ← rootSpec.finish root false
    .error .missingCommand
  | (root, some (name, rest)) =>
    match commandSpecs.lookup name with
    | none => .error (answerHelp rest)
    | some spec =>
      let (inner, _) ← spec.readAll {} rest
      let settled ← spec.finish inner false
      let outer ← rootSpec.finish root true
      let config := (settled.lookup configOption.long).orElse fun _ =>
        outer.lookup configOption.long
      return ⟨config, commandOf name settled⟩

end CommandLine
end Wiring
