import Wiring.Command.Line
import Wiring.Command.Log
import Wiring.Config.Loading
import Wiring.Emission.Code
import Wiring.Model.Loading
import Wiring.Model.Query
import Wiring.Report
/-! Carrying out commands. -/
namespace Wiring

/-- Why a command could not be carried out. -/
inductive CommandFailure where
  | configuration (cause : Failure)
  | logging (cause : Failure)
  | model (path : String) (cause : Failure)
  | output (path : String) (cause : FileError)
  /-- Code too long to wait could not be written. -/
  | code (cause : FileError)
  /-- Code that waited for the end could not be written. -/
  | unwritten (path : String) (cause : FileError)
  deriving DecidableEq, Repr, Inhabited

def CommandFailure.message : CommandFailure → String
  | .configuration cause => cause.message
  | .logging cause => cause.message
  | .model path cause => "Failed to load model " ++ path ++ ": " ++ cause.message
  | .output path cause => "Failed to create " ++ path ++ ": " ++ cause.message
  | .code cause => "Failed to write generated code: " ++ cause.message
  | .unwritten path cause => "Failed to write " ++ path ++ ": " ++ cause.message

/-- What `check` finds. -/
structure Checked where
  passed : Bool
  /-- The report and a line break. -/
  text : String
  deriving DecidableEq, Repr, Inhabited

/-- What `generate` makes. -/
structure Generated where
  passed : Bool
  code : String
  /-- One line for each diagnostic. -/
  diagnostics : String
  deriving DecidableEq, Repr, Inhabited

/-- Analyzes the model of a document. -/
def Config.analyze (c : Config) (document : ModelDocument) : Except Failure AnalysisOutcome :=
  (SymbolModel.load document).map fun (model, sites) => Wiring.analyze model c.analysis sites

def Config.checkOutcome (c : Config) (timestamp path : String) (outcome : AnalysisOutcome) :
    Checked :=
  let report := Report.ofOutcome timestamp path outcome c.report.denyWarnings
  ⟨report.passed, Text.trimEnd (report.render c.report.format) ++ "\n"⟩

/-- Code is made for the valid registrations even when others were rejected. -/
def Config.generateOutcome (c : Config) (outcome : AnalysisOutcome) : Generated :=
  { passed := outcome.passes c.report.denyWarnings
    code := Emission.emit c.emit outcome.records
    diagnostics := String.join (outcome.diagnostics.map fun d => d.compilerLine ++ "\n") }

/-- What a command leaves behind, beside files. -/
structure CommandResult where
  exitCode : Nat
  stdout : String := ""
  stderr : String := ""
  deriving DecidableEq, Repr, Inhabited

/-- A failed analysis is told by the exit code. -/
def CommandResult.ofVerdict (passed : Bool) (stdout stderr : String) : CommandResult :=
  ⟨if passed then 0 else 1, stdout, stderr⟩

def CommandResult.ofFailure (f : CommandFailure) : CommandResult :=
  ⟨2, "", "error: " ++ f.message ++ "\n"⟩

def CommandResult.ofExcept : Except CommandFailure CommandResult → CommandResult
  | .ok result => result
  | .error failure => .ofFailure failure

/-- A program that breaks off has an exit code of its own. -/
def CommandResult.ofLogFailure : LogFailure → CommandResult
  | .refused cause => .ofFailure (.logging cause)
  | .brokenOff outcry => ⟨101, "", outcry⟩

/-- The result with a text that went to the error stream before. -/
def CommandResult.after (text : String) (r : CommandResult) : CommandResult :=
  { r with stderr := text ++ r.stderr }

/-- The configuration with warnings denied on the command line too. -/
def Config.denyingWarnings (c : Config) (denyWarnings : Bool) : Config :=
  { c with report := { c.report with denyWarnings := c.report.denyWarnings || denyWarnings } }

/-- The configuration with a format from the command line. -/
def Config.withFormat (c : Config) : Option ReportFormat → Config
  | some format => { c with report := { c.report with format } }
  | none => c

/-- What is printed about a command line that is not carried out. -/
def CommandResult.ofUsage : UsageError → CommandResult
  | .helpAsked => ⟨0, CommandLine.helpText, ""⟩
  | .versionAsked => ⟨0, CommandLine.versionText, ""⟩
  | .nothingGiven => ⟨2, "", CommandLine.helpText⟩
  | e => ⟨e.exitCode, "", "error: " ++ e.message ++ "\n"⟩

namespace Command

variable {m : Type → Type} [Monad m] [FileSystem m]

/-- Loads and analyzes the model at a path. -/
def analyzeModel (config : Config) (path : String) : m (Except CommandFailure AnalysisOutcome) := do
  let document ← ModelDocument.read path
  return (document.bind config.analyze).mapError (.model path)

def runCheck (config : Config) (timestamp path : String) : m (Except CommandFailure Checked) := do
  return (← analyzeModel config path).map (config.checkOutcome timestamp path)

def runGenerate (config : Config) (path : String) : m (Except CommandFailure Generated) := do
  return (← analyzeModel config path).map config.generateOutcome

/-- The bytes of code that can wait to be written. -/
def bufferSize : Nat := 8192

/-- Writes code to a file that is empty. Short code waits for the last lines of the log. -/
def writeCode (config : Config) (log : RunLog) (output : String) (generated : Generated) :
    m CommandResult := do
  let verdict := CommandResult.ofVerdict generated.passed "" ""
  if generated.code.utf8ByteSize < bufferSize then
    log.add config.logging log.completion
    match ← FileSystem.overwrite output generated.code with
    | .ok () => return verdict.after log.completion.onStderr
    | .error cause =>
      return (CommandResult.ofFailure (.unwritten output cause)).after log.completion.onStderr
  else
    match ← FileSystem.overwrite output generated.code with
    | .ok () =>
      log.add config.logging log.completion
      return verdict.after log.completion.onStderr
    | .error cause => return .ofFailure (.code cause)

/-- As `runGenerate`, with the code written to a file, which is emptied first. -/
def runGenerateTo (config : Config) (log : RunLog) (path output : String) : m CommandResult := do
  match ← FileSystem.write output "" with
  | .error cause => return .ofFailure (.output output cause)
  | .ok () =>
    let made ← runGenerate config path
    log.add config.logging log.analysis
    match made with
    | .error failure => return (CommandResult.ofFailure failure).after log.analysis.onStderr
    | .ok generated =>
      log.add config.logging log.rendering
      let written ← writeCode config log output generated
      return ((written.after log.rendering.onStderr).after generated.diagnostics).after
        log.analysis.onStderr

/-- Carries out a command under a configuration. -/
def runWith (config : Config) (timestamp : String) (log : RunLog) : Command → m CommandResult
  | .check path format denyWarnings => do
    let config := (config.withFormat format).denyingWarnings denyWarnings
    let checked ← runCheck config timestamp path
    log.add config.logging log.analysis
    return (CommandResult.ofExcept (checked.map fun checked =>
      .ofVerdict checked.passed checked.text "")).after log.analysis.onStderr
  | .generate path output denyWarnings => do
    let config := config.denyingWarnings denyWarnings
    match output with
    | some output => runGenerateTo config log path output
    | none =>
      let made ← runGenerate config path
      log.add config.logging log.analysis
      match made with
      | .error failure => return (CommandResult.ofFailure failure).after log.analysis.onStderr
      | .ok generated =>
        log.add config.logging log.rendering
        log.add config.logging log.completion
        let printed := (CommandResult.ofVerdict generated.passed generated.code "").after
          log.completion.onStderr
        return ((printed.after log.rendering.onStderr).after generated.diagnostics).after
          log.analysis.onStderr
  | .diagnostics => return .ofVerdict true ProblemKind.catalogText ""

end Command

namespace CommandLine

variable {m : Type → Type} [Monad m] [FileSystem m]

/-- Loads the configuration, starts the log and carries out the command. -/
def run (line : CommandLine) (environment : Environment) (timestamp : String)
    (log : RunLog := {}) : m CommandResult := do
  match ← Config.load line.config Config.defaultVariableStart environment with
  | .error failure => return .ofFailure (.configuration failure)
  | .ok config =>
    match ← log.start config.logging with
    | .error failure => return .ofLogFailure failure
    | .ok () => return (← line.command.runWith config timestamp log).after log.opening.onStderr

/-- Reads the arguments after the name of the program and carries them out. -/
def runArguments (arguments : List String) (environment : Environment) (timestamp : String)
    (log : RunLog := {}) : m CommandResult :=
  match parse arguments with
  | .ok line => line.run environment timestamp log
  | .error e => return .ofUsage e

end CommandLine
end Wiring
