import Wiring.Codec.Options
import Wiring.Config.Basic
/-! Written form of the configuration, in any format. Every field has a default. -/
namespace Wiring
open Decode

variable {ν : Type} [ValueTree ν]

namespace ReportFormat

def alternatives : List (String × ReportFormat) := [("human", .human), ("json", .json)]

def written (W : Writer ν) (f : ReportFormat) : ν := W.text f.text

def toJson (f : ReportFormat) : Json := f.written Json.writer

def decode? (v : ν) : Option ReportFormat := oneOf alternatives v

end ReportFormat

namespace LoggingConfig

/-- The file is left out when there is none. -/
def written (W : Writer ν) (c : LoggingConfig) : ν :=
  W.record ([("level", W.text c.level), ("json_format", W.flag c.jsonFormat)]
    ++ (c.fileOutput.map fun path => ("file_output", W.text path)).toList)

def toJson (c : LoggingConfig) : Json := c.written Json.writer

def decode? (v : ν) : Option LoggingConfig := do
  let r ← record? ["level", "json_format", "file_output"] v
  let default : LoggingConfig := {}
  return {
    level := ← r.withDefault "level" default.level text?
    jsonFormat := ← r.withDefault "json_format" default.jsonFormat flag?
    fileOutput := ← r.withDefault "file_output" default.fileOutput (nullable text?) }

end LoggingConfig

namespace ReportConfig

def written (W : Writer ν) (c : ReportConfig) : ν :=
  W.record [("format", c.format.written W), ("deny_warnings", W.flag c.denyWarnings)]

def toJson (c : ReportConfig) : Json := c.written Json.writer

def decode? (v : ν) : Option ReportConfig := do
  let r ← record? ["format", "deny_warnings"] v
  let default : ReportConfig := {}
  return {
    format := ← r.withDefault "format" default.format ReportFormat.decode?
    denyWarnings := ← r.withDefault "deny_warnings" default.denyWarnings flag? }

end ReportConfig

namespace Config

def written (W : Writer ν) (c : Config) : ν :=
  W.record [("logging", c.logging.written W), ("analysis", c.analysis.written W),
    ("emit", c.emit.written W), ("report", c.report.written W)]

def toJson (c : Config) : Json := c.written Json.writer

def decode? (v : ν) : Option Config := do
  let r ← record? ["logging", "analysis", "emit", "report"] v
  return {
    logging := ← r.withDefault "logging" {} LoggingConfig.decode?
    analysis := ← r.withDefault "analysis" {} AnalysisOptions.decode?
    emit := ← r.withDefault "emit" {} EmitOptions.decode?
    report := ← r.withDefault "report" {} ReportConfig.decode? }

end Config
end Wiring
