import Std.Time.Format
import Std.Time.Zoned
import Wiring.Command.Run
/-! The program: carries out a command line on the files and variables of its process. -/
namespace Wiring.Process

/-- The refusal that an error of the operating system stands for. -/
def fileError (e : IO.Error) : FileError :=
  match e with
  | .noFileOrDirectory _ _ _ => .notFound
  | .alreadyExists _ _ _ => .exists
  | .inappropriateType _ 21 _ => .isDirectory
  | .inappropriateType _ 20 _ => .notDirectory
  | .permissionDenied _ number description => .other description number.toNat
  | .resourceExhausted _ number description => .other description number.toNat
  | .invalidArgument _ number description => .other description number.toNat
  | .otherError number description => .other description number.toNat
  | e => .other (toString e) 0

def readBytes (path : String) : IO (Except FileError ByteArray) := do
  try return .ok (← IO.FS.readBinFile path)
  catch e => return .error (fileError e)

/-- Carries out an operation that may be refused. -/
def attempt (operation : IO Unit) : IO (Except FileError Unit) := do
  try
    operation
    return .ok ()
  catch e => return .error (fileError e)

/-- Writes a text to a file that is opened for it. -/
def writeVia (mode : IO.FS.Mode) (path text : String) : IO Unit := do
  let handle ← IO.FS.Handle.mk path mode
  handle.putStr text

instance : FileSystem IO where
  isPresent path := do
    match ← readBytes path with
    | .error .notFound | .error .notDirectory => return false
    | _ => return true
  read := readBytes
  write path text := attempt (writeVia .write path text)
  overwrite path text := attempt (writeVia .readWrite path text)
  append path text := attempt (writeVia .append path text)
  createDirectories path := attempt (IO.FS.createDirAll path)

/-- The variables of the process. -/
def processEnvironment : IO Environment := do
  match ← FileSystem.readText (m := IO) "/proc/self/environ" with
  | .ok block => return .ofVariables (Environment.variablesOfBlock block)
  | .error _ => return .ofVariables []

/-- The present time in universal time, in a format. -/
def now (format : String) : IO String := do
  let instant ← Std.Time.Timestamp.now
  return (Std.Time.DateTime.ofTimestamp instant Std.Time.TimeZone.ZoneRules.UTC).format format

def timestampNow : IO String := now "uuuu-MM-dd'T'HH:mm:ss.SSSSSSSSSxxx"

/-- A log without lines, kept for the present day. -/
def silentLog : IO RunLog := do
  let text ← now "uuuu-MM-dd"
  if isDate : isDateText text = true then return { day := ⟨text, isDate⟩ }
  else return {}

end Wiring.Process

open Wiring Process

/-- Carries out the command line of the process. -/
def main (arguments : List String) : IO UInt32 := do
  let result ← CommandLine.runArguments (m := IO) arguments (← processEnvironment) (← timestampNow)
    (← silentLog)
  (← IO.getStdout).putStr result.stdout
  (← IO.getStderr).putStr result.stderr
  return UInt32.ofNat result.exitCode
