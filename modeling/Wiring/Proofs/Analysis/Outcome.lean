import Mathlib.Data.Finset.Card
import Wiring.Proofs.Analysis.Memory
import Wiring.Proofs.Analysis.Rejection
import Wiring.Proofs.Graph.Diagnostics

/-! The counters of an analysis. Errors are counted from diagnostics and rejections from what was
dropped; there are none of the one exactly when there are none of the other. Warnings count the
records whose interface an earlier record has. -/
namespace Wiring

namespace Graph

theorem isError_of_mem_recordDiagnostics {records rest : List RegistrationRecord}
    {detection : CycleDetection} {reported : List (List String)} {d : Diagnostic}
    (h : d ∈ recordDiagnostics records detection reported rest) : d.isError = true := by
  unfold Diagnostic.isError Diagnostic.severity
  rcases kind_of_mem_recordDiagnostics h with hkind | hkind <;> rw [hkind] <;> rfl

theorem isError_of_mem_repetitions {seen : List String} {records : List RegistrationRecord}
    {d : Diagnostic} (h : d ∈ repetitions seen records) : d.isError = false := by
  unfold Diagnostic.isError Diagnostic.severity
  rw [kind_of_mem_repetitions h]
  rfl

/-- Validation reports errors exactly when it drops records. -/
theorem countP_isError_validate_eq_zero_iff (detection : CycleDetection)
    (records : List RegistrationRecord) :
    (validate detection records).diagnostics.countP Diagnostic.isError = 0 ↔
      (validate detection records).records = records := by
  change (repetitions [] records ++ recordDiagnostics records detection [] records).countP _ = 0 ↔
    records.filter (isSound records detection) = records
  rw [List.filter_eq_self, ← recordDiagnostics_eq_nil_iff, List.countP_append,
    List.countP_eq_zero.mpr fun d hd => by simp [isError_of_mem_repetitions hd],
    List.countP_eq_length.mpr fun d hd => isError_of_mem_recordDiagnostics hd, Nat.zero_add,
    List.length_eq_zero_iff]

/-- Validation warns once for each record that repeats an interface. -/
theorem countP_isWarning_validate_add_card (detection : CycleDetection)
    (records : List RegistrationRecord) :
    (validate detection records).diagnostics.countP (fun d => !d.isError) +
      (records.map RegistrationRecord.key).toFinset.card = records.length := by
  change (repetitions [] records ++ recordDiagnostics records detection [] records).countP _ + _ =
    records.length
  rw [List.countP_append,
    List.countP_eq_length.mpr fun d hd => by simp [isError_of_mem_repetitions hd],
    List.countP_eq_zero.mpr fun d hd => by simp [isError_of_mem_recordDiagnostics hd],
    Nat.add_zero]
  simpa using length_repetitions_add_card [] records

end Graph

namespace Extraction

variable {extractions : List Extraction}

/-- Extraction reports errors exactly when it rejects sites. -/
theorem countP_isError_diagnostics_eq_zero_iff
    (hreports : ∀ rejection, .error rejection ∈ extractions → rejection.Reports) :
    (extractions.flatMap diagnostics).countP Diagnostic.isError = 0 ↔
      extractions.countP isRejection = 0 := by
  rw [List.countP_eq_zero, List.countP_eq_zero]
  constructor
  · intro hnone extraction hmem hrejection
    cases extraction with
    | ok extracted => contradiction
    | error rejection =>
      obtain ⟨hnonempty, herrors⟩ := hreports rejection hmem
      obtain ⟨d, hd⟩ := List.exists_mem_of_ne_nil rejection hnonempty
      exact hnone d (List.mem_flatMap.mpr ⟨.error rejection, hmem, hd⟩) (herrors d hd)
  · intro hnone d hd
    obtain ⟨extraction, hmem, hd⟩ := List.mem_flatMap.mp hd
    cases extraction with
    | ok extracted => contradiction
    | error rejection => exact absurd rfl (hnone (.error rejection) hmem)

theorem countP_isWarning_diagnostics
    (hreports : ∀ rejection, .error rejection ∈ extractions → rejection.Reports) :
    (extractions.flatMap diagnostics).countP (fun d => !d.isError) = 0 := by
  rw [List.countP_eq_zero]
  intro d hd
  obtain ⟨extraction, hmem, hd⟩ := List.mem_flatMap.mp hd
  cases extraction with
  | ok extracted => contradiction
  | error rejection => simp [(hreports rejection hmem).errors d hd]

end Extraction

/-- The records that extraction gives for sites, before validation. -/
def extractedRecords (model : SymbolPort) (options : AnalysisOptions)
    (sites : List InvocationSite) : List RegistrationRecord :=
  sites.filterMap fun site => ((Extractor.ofOptions model options).extract site).record?

section Counters

variable (model : SymbolPort) (options : AnalysisOptions) (sites : List InvocationSite)

theorem extractedRecords_eq :
    extractedRecords model options sites =
      (sites.map (Extractor.ofOptions model options).extract).filterMap Extraction.record? := by
  unfold extractedRecords
  rw [List.filterMap_map]
  rfl

theorem reports_of_mem_map_extract (rejection : Rejection)
    (h : .error rejection ∈ sites.map (Extractor.ofOptions model options).extract) :
    rejection.Reports := by
  obtain ⟨site, _, hextract⟩ := List.mem_map.mp h
  exact Extractor.reports_of_extract hextract

theorem stats_extracted_eq :
    (analyze model options sites).stats.extracted =
      (extractedRecords model options sites).length := by
  rw [analyze_eq, extractedRecords_eq]
  rfl

/-- An analysis counts no errors exactly when it drops no registration. -/
theorem stats_errors_eq_zero_iff :
    (analyze model options sites).stats.errors = 0 ↔
      (analyze model options sites).stats.rejected = 0 := by
  rw [analyze_eq]
  let extractions := sites.map (Extractor.ofOptions model options).extract
  let collected := extractions.filterMap Extraction.record?
  let validated := Graph.validate options.cycleDetection collected
  change (extractions.flatMap Extraction.diagnostics ++ validated.diagnostics).countP
      Diagnostic.isError = 0 ↔
    extractions.countP Extraction.isRejection + (collected.length - validated.records.length) = 0
  have hkept : collected.length - validated.records.length = 0 ↔ validated.records = collected := by
    rw [Nat.sub_eq_zero_iff_le]
    constructor
    · exact fun hle => List.filter_sublist.eq_of_length_le hle
    · intro heq
      rw [heq]
  rw [List.countP_append, Nat.add_eq_zero_iff, Nat.add_eq_zero_iff, hkept,
    Extraction.countP_isError_diagnostics_eq_zero_iff (reports_of_mem_map_extract _ _ _),
    Graph.countP_isError_validate_eq_zero_iff]

/-- An analysis warns once for each extracted record that repeats an interface. -/
theorem stats_warnings_add_card :
    (analyze model options sites).stats.warnings +
        ((extractedRecords model options sites).map RegistrationRecord.key).toFinset.card =
      (extractedRecords model options sites).length := by
  rw [analyze_eq, extractedRecords_eq]
  let extractions := sites.map (Extractor.ofOptions model options).extract
  let collected := extractions.filterMap Extraction.record?
  change (extractions.flatMap Extraction.diagnostics ++
      (Graph.validate options.cycleDetection collected).diagnostics).countP (fun d => !d.isError) +
    (collected.map RegistrationRecord.key).toFinset.card = collected.length
  rw [List.countP_append,
    Extraction.countP_isWarning_diagnostics (reports_of_mem_map_extract _ _ _), Nat.zero_add]
  exact Graph.countP_isWarning_validate_add_card options.cycleDetection collected

theorem stats_warnings_eq_zero_iff :
    (analyze model options sites).stats.warnings = 0 ↔
      ((extractedRecords model options sites).map RegistrationRecord.key).Nodup := by
  let keys := (extractedRecords model options sites).map RegistrationRecord.key
  have hlength : keys.length = (extractedRecords model options sites).length := List.length_map _
  have hdistinct : keys.toFinset.card = keys.length ↔ keys.Nodup :=
    Multiset.toFinset_card_eq_card_iff_nodup
  have hle : keys.toFinset.card ≤ keys.length := List.toFinset_card_le keys
  have hcount : _ + keys.toFinset.card = _ := stats_warnings_add_card model options sites
  rw [← hdistinct]
  omega

theorem passes_iff (denyWarnings : Bool) :
    (analyze model options sites).passes denyWarnings = true ↔
      (analyze model options sites).stats.rejected = 0 ∧
        (denyWarnings = true →
          ((extractedRecords model options sites).map RegistrationRecord.key).Nodup) := by
  rw [← stats_errors_eq_zero_iff, ← stats_warnings_eq_zero_iff]
  cases denyWarnings <;>
    simp [AnalysisOutcome.passes, AnalysisOutcome.hasErrors, AnalysisOutcome.hasWarnings]

end Counters

end Wiring
