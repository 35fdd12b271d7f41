import Wiring.Analysis.Service
import Wiring.Codec.Diagnostic
import Wiring.Json.Printer
import Wiring.Report.Format
/-! The report of one analysis, as a listing for readers or as JSON. -/
namespace Wiring

/-- Counters of a report. -/
structure ReportSummary where
  sites : Nat
  /-- Registrations that extraction found. -/
  registrations : Nat
  /-- Registrations that passed validation too. -/
  valid : Nat
  rejected : Nat
  errors : Nat
  warnings : Nat
  passed : Bool
  deriving DecidableEq, Repr, Inhabited

structure Report where
  /-- When the report was made. -/
  timestamp : String
  /-- Path of the model document. -/
  model : String
  summary : ReportSummary
  diagnostics : List Diagnostic
  deriving DecidableEq, Repr, Inhabited

namespace Report

def ofOutcome (timestamp model : String) (outcome : AnalysisOutcome) (denyWarnings : Bool) :
    Report :=
  { timestamp, model
    summary := {
      sites := outcome.stats.sites
      registrations := outcome.stats.extracted
      valid := outcome.records.length
      rejected := outcome.stats.rejected
      errors := outcome.stats.errors
      warnings := outcome.stats.warnings
      passed := outcome.passes denyWarnings }
    diagnostics := outcome.diagnostics }

def passed (r : Report) : Bool := r.summary.passed

def summaryJson (s : ReportSummary) : Json :=
  .obj [("sites", .nat s.sites), ("registrations", .nat s.registrations), ("valid", .nat s.valid),
    ("rejected", .nat s.rejected), ("errors", .nat s.errors), ("warnings", .nat s.warnings),
    ("passed", .bool s.passed)]

def toJson (r : Report) : Json :=
  .obj [("timestamp", .str r.timestamp), ("model", .str r.model),
    ("summary", summaryJson r.summary),
    ("diagnostics", .list Diagnostic.entryJson r.diagnostics)]

/-- The lines of the summary. -/
def summaryLines (s : ReportSummary) : List String :=
  ["--- Summary ---",
   "Invocation sites: " ++ toString s.sites,
   "Registrations:    " ++ toString s.registrations,
   "Valid:            " ++ toString s.valid,
   "Rejected:         " ++ toString s.rejected,
   "Errors:           " ++ toString s.errors,
   "Warnings:         " ++ toString s.warnings,
   "",
   "Status: " ++ (if s.passed then "PASSED" else "FAILED")]

/-- The line of one diagnostic. -/
def diagnosticLine (d : Diagnostic) : String :=
  "  [" ++ d.severity.text ++ "] " ++ d.id ++ " " ++ d.location.text ++ ": " ++ d.message

/-- The lines about diagnostics, none when there is nothing to report. -/
def diagnosticLines : List Diagnostic → List String
  | [] => []
  | diagnostics => ["", "--- Diagnostics ---"] ++ diagnostics.map diagnosticLine

/-- The listing for readers. -/
def humanText (r : Report) : String :=
  let lines :=
    ["=== Registration Analysis Report ===", "", "Timestamp: " ++ r.timestamp,
     "Model: " ++ r.model, ""] ++ summaryLines r.summary ++ diagnosticLines r.diagnostics
  String.join (lines.map fun line => line ++ "\n")

def render (r : Report) : ReportFormat → String
  | .human => r.humanText
  | .json => r.toJson.pretty

end Report
end Wiring
