import Wiring.Proofs.Analysis.Interleaving
import Wiring.Proofs.Analysis.Outcome

/-! Nothing that an analysis is handed gets lost or counted twice. Extraction skips a site, rejects
it or makes a record of it, and validation keeps a record or drops it; so the counters, which are
taken at both of these stages, add up to the sites. -/
namespace Wiring

/-- Each extraction is a skip, a rejection or a record. -/
theorem Extraction.length_eq (extractions : List Extraction) :
    extractions.length = extractions.countP isSkip + extractions.countP isRejection +
      (extractions.filterMap record?).length := by
  induction extractions with
  | nil => rfl
  | cons extraction rest ih =>
    rcases extraction with rejection | _ | record <;>
      simp only [List.length_cons, List.countP_cons, List.filterMap_cons, isSkip, isRejection,
        record?, if_true, Bool.false_eq_true, if_false] <;>
      omega

namespace AnalysisOutcome

variable (detection : CycleDetection) (extractions : List Extraction)

/-- What extraction found and does not come out has been dropped, and is counted as rejected. -/
theorem exists_dropped :
    ∃ dropped, ((ofExtractions detection extractions).records ++ dropped).Perm
        (extractions.filterMap Extraction.record?) ∧
      (ofExtractions detection extractions).stats.extracted =
        (ofExtractions detection extractions).records.length + dropped.length ∧
      (ofExtractions detection extractions).stats.rejected =
        extractions.countP Extraction.isRejection + dropped.length := by
  let collected := extractions.filterMap Extraction.record?
  let kept := (Graph.validate detection collected).records
  let dropped := collected.filter fun r => !Graph.isSound collected detection r
  have hperm : (kept ++ dropped).Perm collected := List.filter_append_perm _ _
  have hlength : kept.length + dropped.length = collected.length := by
    rw [← List.length_append, hperm.length_eq]
  refine ⟨dropped, hperm, hlength.symm, ?_⟩
  have hdropped : collected.length - kept.length = dropped.length := by omega
  exact congrArg _ hdropped

theorem length_eq :
    extractions.length = (ofExtractions detection extractions).stats.skipped +
      (ofExtractions detection extractions).stats.rejected +
      (ofExtractions detection extractions).records.length := by
  obtain ⟨dropped, hperm, _, hrejected⟩ := exists_dropped detection extractions
  have hlength := hperm.length_eq
  rw [List.length_append] at hlength
  have hskipped : (ofExtractions detection extractions).stats.skipped =
      extractions.countP Extraction.isSkip := rfl
  rw [Extraction.length_eq, hskipped, hrejected]
  omega

/-- Every diagnostic is counted, as an error or as a warning. -/
theorem errors_add_warnings :
    (ofExtractions detection extractions).stats.errors +
        (ofExtractions detection extractions).stats.warnings =
      (ofExtractions detection extractions).diagnostics.length := by
  have hsplit := List.length_eq_countP_add_countP Diagnostic.isError
    (l := (ofExtractions detection extractions).diagnostics)
  simp only [Bool.not_eq_true, Bool.decide_eq_false] at hsplit
  exact hsplit.symm

end AnalysisOutcome

/-- In whatever order its tasks have taken their steps, a finished pass has found for each site what
extraction finds. -/
theorem Pass.extractions_eq {e : Extractor} {cache : Cache} {sites : List InvocationSite}
    (hreached : cache.Reached e) {p : Pass} (hrun : (start cache sites).Reaches e p)
    {extractions : List Extraction} (hresults : p.results = extractions.map some) :
    extractions = sites.map e.extract := by
  obtain ⟨hfaithful, hdistinct⟩ := hreached.faithful_distinct
  have hdone : p.Finished := by simp [Finished, hresults]
  have hsites := ((follows_start hfaithful hdistinct sites).reaches hrun).results_eq hdone
  rw [hresults] at hsites
  refine List.map_injective_iff.mpr (Option.some_injective Extraction) ?_
  rw [hsites, List.map_map]
  rfl

/-- Every site that is handed in is skipped, rejected or among the records that come out, which
stand in the order of the sites, and every diagnostic is counted. -/
theorem sites_conserved {model : SymbolPort} {options : AnalysisOptions} {cache : Cache}
    (hreached : cache.Reached (.ofOptions model options)) (sites : List InvocationSite) :
    let extractor := Extractor.ofOptions model options
    let outcome := (AnalysisService.analyze { model, options, cache } sites).1
    let extracted := extractedRecords model options sites
    (∀ p extractions, (Pass.start cache sites).Reaches extractor p →
      p.results = extractions.map some →
        AnalysisOutcome.ofExtractions options.cycleDetection extractions = outcome) ∧
    outcome.stats.sites = sites.length ∧
    sites.length = outcome.stats.skipped + outcome.stats.rejected + outcome.records.length ∧
    (∃ dropped, (outcome.records ++ dropped).Perm extracted ∧
      outcome.stats.extracted = outcome.records.length + dropped.length ∧
      outcome.stats.rejected = sites.countP extractor.rejects + dropped.length) ∧
    outcome.stats.errors + outcome.stats.warnings = outcome.diagnostics.length ∧
    outcome.records.Sublist extracted := by
  intro extractor outcome extracted
  have hserves : AnalysisService.Serves { model, options, cache } model options :=
    ⟨rfl, rfl, hreached.faithful_distinct.1⟩
  have houtcome : outcome = .ofExtractions options.cycleDetection (sites.map extractor.extract) :=
    (hserves.analyze sites).1
  have hextracted : (sites.map extractor.extract).filterMap Extraction.record? = extracted :=
    (extractedRecords_eq model options sites).symm
  have hrejections : (sites.map extractor.extract).countP Extraction.isRejection =
      sites.countP extractor.rejects := List.countP_map
  obtain ⟨dropped, hperm, hcollected, hrejected⟩ :=
    AnalysisOutcome.exists_dropped options.cycleDetection (sites.map extractor.extract)
  have hlength :=
    AnalysisOutcome.length_eq options.cycleDetection (sites.map extractor.extract)
  rw [hextracted] at hperm
  rw [hrejections] at hrejected
  rw [List.length_map] at hlength
  rw [houtcome]
  refine ⟨fun p extractions hrun hresults => ?_, List.length_map _, hlength,
    ⟨dropped, hperm, hcollected, hrejected⟩, AnalysisOutcome.errors_add_warnings _ _, ?_⟩
  · rw [Pass.extractions_eq hreached hrun hresults]
  · rw [← hextracted]
    exact List.filter_sublist

/-- A clock without constructors, and a type that needs itself. -/
def loopModel : SymbolModel where
  types := #[
    { name := "IClock" }
    , { name := "Loop"
        constructors := [
          { candidate := {
              member := .constructor ⟨1, "Loop"⟩ 0
              parameters := [⟨"next", ⟨1, "Loop"⟩, none⟩]
              isStatic := false
              isSynthesized := false
              location := none }
            accessibility := .publicAccess
            attributes := [] }] }]

/-- A constant twice, a call that is no registration, and two that are rejected: one by extraction
and one by validation. -/
def mixedCalls : List InvocationSite :=
  [clockCall, clockCall, { clockCall with methodName := "Log" },
    { clockCall with methodName := "Register" },
    { clockCall with methodName := "Register", typeArguments := [⟨1, "Loop"⟩] }]

/-- A service that has seen one of the calls before answers it from its cache. -/
theorem sites_conserved_mixedCalls :
    let extractor := Extractor.ofOptions loopModel {}
    let cache := (Cache.extractAll extractor {} [clockCall]).2
    let service : AnalysisService := { model := loopModel, options := {}, cache }
    let outcome := (service.analyze mixedCalls).1
    cache.Reached extractor ∧
    (outcome.stats.skipped, outcome.stats.rejected, outcome.records.length) = (1, 2, 2) ∧
    mixedCalls.length =
      outcome.stats.skipped + outcome.stats.rejected + outcome.records.length ∧
    outcome.stats.errors + outcome.stats.warnings = outcome.diagnostics.length ∧
    outcome.records.Sublist (extractedRecords loopModel {} mixedCalls) := by
  intro extractor cache service outcome
  have hreached : cache.Reached extractor := .inOrder .new [clockCall]
  obtain ⟨_, _, hsites, _, hdiagnostics, hrecords⟩ := sites_conserved hreached mixedCalls
  exact ⟨hreached, by decide +kernel, hsites, hdiagnostics, hrecords⟩

end Wiring
