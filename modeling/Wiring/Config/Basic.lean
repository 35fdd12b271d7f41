import Wiring.Config.Level
import Wiring.Options
import Wiring.Report.Format
import Wiring.Text.Blank
/-! The configuration of the program, and what makes one valid. -/
namespace Wiring

structure LoggingConfig where
  level : String := "warn"
  /-- Write JSON lines instead of plain text. -/
  jsonFormat : Bool := false
  /-- Also write to this file. -/
  fileOutput : Option String := none
  deriving DecidableEq, Repr, Inhabited

structure ReportConfig where
  format : ReportFormat := .human
  /-- Let warnings fail the analysis. -/
  denyWarnings : Bool := false
  deriving DecidableEq, Repr, Inhabited

structure Config where
  logging : LoggingConfig := {}
  analysis : AnalysisOptions := {}
  emit : EmitOptions := {}
  report : ReportConfig := {}
  deriving DecidableEq, Repr, Inhabited

namespace Config

/-- The settings that must hold more than white space, under their keys, in the order in which
they are checked. -/
def requiredTexts (c : Config) : List (String × String) :=
  [("analysis.registrations_type", c.analysis.registrationsType),
   ("analysis.well_known.lazy", c.analysis.wellKnown.lazy),
   ("analysis.well_known.enumerable", c.analysis.wellKnown.enumerable),
   ("analysis.well_known.constructor_marker", c.analysis.wellKnown.constructorMarker),
   ("analysis.well_known.property_marker", c.analysis.wellKnown.propertyMarker),
   ("emit.namespace", c.emit.enclosing),
   ("emit.class_name", c.emit.className),
   ("emit.resolver", c.emit.resolver)]

/-- What makes a configuration invalid: an unknown log level, before the first blank setting. -/
def fault? (c : Config) : Option Failure :=
  match LogLevel.ofText c.logging.level with
  | .error failure => some failure
  | .ok _ =>
    (c.requiredTexts.find? fun setting => Text.isBlankText setting.2).map fun setting =>
      .blankSetting setting.1

def validate (c : Config) : Except Failure Config :=
  match c.fault? with
  | some failure => .error failure
  | none => .ok c

end Config
end Wiring
