import Wiring.Config.Basic
import Wiring.Files.Path
import Wiring.Files.System
/-! The log of a run: lines on the error stream and, if the configuration asks for it, in a file for
the day. Which lines there are depends on times, threads and a filter, so they come from outside;
when they are written, and what happens to the file before, does not. A run that does not end, since
another thread waits for the error stream with its lines, has no result and is not described. -/
namespace Wiring

/-- Whether a text could be a date: digits and hyphens. -/
def isDateText (text : String) : Bool :=
  !text.toList.isEmpty && text.toList.all fun c => c.isDigit || c == '-'

/-- A date as it ends the name of a log file. -/
structure LogDay where
  text : String
  isDate : isDateText text = true

/-- The day from which a clock counts. -/
def LogDay.epoch : LogDay := ⟨"1970-01-01", by decide⟩

/-- The lines of one stretch of a run. -/
structure LogLines where
  onStderr : String := ""
  inFile : String := ""

/-- What the log of a run takes from outside. -/
structure RunLog where
  /-- On which the whole run takes place. -/
  day : LogDay := .epoch
  /-- Why there can be no log: the process has one already. -/
  refusal : Option String := none
  /-- What is said when the file cannot be opened. -/
  outcry : String := ""
  /-- Up to the command. -/
  opening : LogLines := {}
  /-- Once the model is read, up to the end of the analysis. -/
  analysis : LogLines := {}
  /-- While code is made. -/
  rendering : LogLines := {}
  /-- Once the code is made. -/
  completion : LogLines := {}

/-- Why a run ends where its log should start. -/
inductive LogFailure where
  | refused (cause : Failure)
  /-- The file cannot be opened, which breaks the program off. -/
  | brokenOff (outcry : String)

/-- Where the file of a log stands. -/
structure LogPlace where
  directory : String
  name : String
  deriving DecidableEq, Repr, Inhabited

def LogPlace.path (p : LogPlace) : String := p.directory ++ "/" ++ p.name

namespace LoggingConfig

/-- The name of a log file, before its day, when the configured path has none. -/
def defaultStem : String := "wirebind"

/-- Where the lines of a day go: beside the configured path, under its name with the day in place of
the extension. -/
def place? (c : LoggingConfig) (day : LogDay) : Option LogPlace :=
  c.fileOutput.map fun path =>
    ⟨Path.directory path, (Path.stem? path).getD defaultStem ++ "." ++ day.text⟩

end LoggingConfig

namespace RunLog

variable {m : Type → Type} [Monad m] [FileSystem m]

/-- Opens a file at its end. If that is refused, its directory is made first. -/
def openFile (place : LogPlace) : m (Except FileError Unit) := do
  match ← FileSystem.append place.path "" with
  | .ok () => return .ok ()
  | .error _ =>
    match ← FileSystem.createDirectories place.directory with
    | .error e => return .error e
    | .ok () => FileSystem.append place.path ""

/-- Adds lines to the file, if there is one. It does not matter whether that succeeds. -/
def add (log : RunLog) (logging : LoggingConfig) (lines : LogLines) : m Unit := do
  match logging.place? log.day with
  | none => return ()
  | some place =>
    let _ ← FileSystem.append place.path lines.inFile
    return ()

/-- Opens the file that the configuration asks for, if any. -/
def openPlace (log : RunLog) (logging : LoggingConfig) : m (Except FileError Unit) :=
  match logging.place? log.day with
  | none => return .ok ()
  | some place => openFile place

/-- Starts the log with the lines up to the command. -/
def start (log : RunLog) (logging : LoggingConfig) : m (Except LogFailure Unit) := do
  match LogLevel.ofText logging.level with
  | .error failure => return .error (.refused failure)
  | .ok _ =>
    match ← log.openPlace logging with
    | .error _ => return .error (.brokenOff log.outcry)
    | .ok () =>
      match log.refusal with
      | some cause =>
        return .error (.refused
          (.foreign .infrastructure "Failed to install the global log subscriber" cause))
      | none =>
        log.add logging log.opening
        return .ok ()

end RunLog
end Wiring
