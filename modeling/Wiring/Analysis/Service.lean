import Wiring.Analysis.Cache
import Wiring.Graph.Validation
/-! The whole analysis: every site is extracted, and the registrations found are validated
together. -/
namespace Wiring

/-- Counters of one analysis. -/
structure AnalysisStats where
  /-- Sites handed in. -/
  sites : Nat := 0
  /-- Records that extraction produced. -/
  extracted : Nat := 0
  /-- Sites that are no registration. -/
  skipped : Nat := 0
  /-- Registrations dropped by extraction or validation. -/
  rejected : Nat := 0
  errors : Nat := 0
  warnings : Nat := 0
  deriving DecidableEq, Repr, Inhabited

structure AnalysisOutcome where
  /-- The records that passed, in site order. -/
  records : List RegistrationRecord := []
  /-- Diagnostics of extraction in site order, then those of validation. -/
  diagnostics : List Diagnostic := []
  stats : AnalysisStats := {}
  deriving DecidableEq, Repr, Inhabited

namespace AnalysisOutcome

def hasErrors (o : AnalysisOutcome) : Bool := 0 < o.stats.errors

def hasWarnings (o : AnalysisOutcome) : Bool := 0 < o.stats.warnings

/-- An analysis passes without errors, and without warnings where these are denied. -/
def passes (o : AnalysisOutcome) (denyWarnings : Bool) : Bool :=
  !o.hasErrors && !(denyWarnings && o.hasWarnings)

end AnalysisOutcome

namespace Extraction

/-- The record of an extraction that found one. -/
def record? : Extraction → Option RegistrationRecord
  | .ok record => record
  | .error _ => none

/-- The diagnostics of a rejection. -/
def diagnostics : Extraction → List Diagnostic
  | .ok _ => []
  | .error rejection => rejection

def isSkip : Extraction → Bool
  | .ok none => true
  | _ => false

def isRejection : Extraction → Bool
  | .error _ => true
  | .ok _ => false

end Extraction

/-- Validates what extraction found and counts. -/
def AnalysisOutcome.ofExtractions (detection : CycleDetection) (extractions : List Extraction) :
    AnalysisOutcome :=
  let collected := extractions.filterMap Extraction.record?
  let validated := Graph.validate detection collected
  let diagnostics := extractions.flatMap Extraction.diagnostics ++ validated.diagnostics
  { records := validated.records
    diagnostics
    stats := {
      sites := extractions.length
      extracted := collected.length
      skipped := extractions.countP Extraction.isSkip
      rejected := extractions.countP Extraction.isRejection
        + (collected.length - validated.records.length)
      errors := diagnostics.countP Diagnostic.isError
      warnings := diagnostics.countP fun d => !d.isError } }

/-- An analysis bound to one model, with its memory. -/
structure AnalysisService where
  model : SymbolPort
  options : AnalysisOptions
  cache : Cache := {}

namespace AnalysisService

def extractor (s : AnalysisService) : Extractor := .ofOptions s.model s.options

/-- Analyzes sites, one after the other; later analyses of a site reuse its extraction. With
`parallel` there is a task for each site instead, which finds the same. -/
def analyze (s : AnalysisService) (sites : List InvocationSite) :
    AnalysisOutcome × AnalysisService :=
  let (extractions, cache) := s.cache.extractAll s.extractor sites
  (.ofExtractions s.options.cycleDetection extractions, { s with cache })

def clearCache (s : AnalysisService) : AnalysisService := { s with cache := s.cache.clear }

end AnalysisService

/-- One analysis without memory of others. -/
def analyze (m : SymbolPort) (options : AnalysisOptions) (sites : List InvocationSite) :
    AnalysisOutcome :=
  (AnalysisService.analyze { model := m, options } sites).1

end Wiring
