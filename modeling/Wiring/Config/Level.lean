import Wiring.Failure
import Wiring.Text.Lower
/-! Levels of logging. -/
namespace Wiring

inductive LogLevel where
  | trace | debug | info | warn | error
  deriving DecidableEq, Repr, Inhabited

namespace LogLevel

/-- The form in which the level is written. -/
def text : LogLevel → String
  | .trace => "TRACE"
  | .debug => "DEBUG"
  | .info => "INFO"
  | .warn => "WARN"
  | .error => "ERROR"

/-- The filter that passes events of the level and above. -/
def filterText : LogLevel → String
  | .trace => "trace"
  | .debug => "debug"
  | .info => "info"
  | .warn => "warn"
  | .error => "error"

/-- The names of levels, one level having two. -/
def names : List (String × LogLevel) :=
  [("trace", .trace), ("debug", .debug), ("info", .info), ("warn", .warn), ("warning", .warn),
   ("error", .error)]

/-- The level of a name in any case. The refusal shows the name as it is. -/
def ofText (name : String) : Except Failure LogLevel :=
  match names.lookup (Text.toLower name) with
  | some level => .ok level
  | none => .error (.invalidLogLevel name)

end LogLevel
end Wiring
