import Wiring.Config.Basic
import Wiring.Codec.Options
import Wiring.Files.System
import Wiring.Toml.Quoted
/-! The configuration as a file: one section after the other, every setting on a line. -/
namespace Wiring
namespace Config

def flagText (b : Bool) : String := if b then "true" else "false"

/-- The fields of a section and their values as they are written. -/
def loggingFields (c : LoggingConfig) : List (String × String) :=
  [("level", Toml.quote c.level), ("json_format", flagText c.jsonFormat)]
    ++ (c.fileOutput.map fun path => ("file_output", Toml.quote path)).toList

def analysisFields (o : AnalysisOptions) : List (String × String) :=
  [("cycle_detection", Toml.quote o.cycleDetection.text), ("parallel", flagText o.parallel),
   ("registrations_type", Toml.quote o.registrationsType)]

def wellKnownFields (w : WellKnownNames) : List (String × String) :=
  [("lazy", Toml.quote w.lazy), ("enumerable", Toml.quote w.enumerable),
   ("constructor_marker", Toml.quote w.constructorMarker),
   ("property_marker", Toml.quote w.propertyMarker)]

def emitFields (o : EmitOptions) : List (String × String) :=
  [("namespace", Toml.quote o.enclosing), ("class_name", Toml.quote o.className),
   ("resolver", Toml.quote o.resolver)]

def reportFields (c : ReportConfig) : List (String × String) :=
  [("format", Toml.quote c.format.text), ("deny_warnings", flagText c.denyWarnings)]

/-- The sections of the file, with their headers. -/
def sections (c : Config) : List (String × List (String × String)) :=
  [("logging", loggingFields c.logging), ("analysis", analysisFields c.analysis),
   ("analysis.well_known", wellKnownFields c.analysis.wellKnown), ("emit", emitFields c.emit),
   ("report", reportFields c.report)]

/-- One section. -/
def sectionText (header : String) (fields : List (String × String)) : String :=
  "[" ++ header ++ "]\n"
    ++ String.join (fields.map fun field => field.1 ++ " = " ++ field.2 ++ "\n")

/-- The text of the file. -/
def fileText (c : Config) : String :=
  String.intercalate "\n" (c.sections.map fun s => sectionText s.1 s.2)

variable {m : Type → Type} [Monad m] [FileSystem m]

def save (c : Config) (path : String) : m (Except Failure Unit) := do
  return (← FileSystem.write path c.fileText).mapError (.unwritableConfig path)

end Config
end Wiring
