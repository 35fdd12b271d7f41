import Wiring.Proofs.Analysis.Accounting
import Wiring.Proofs.Analysis.Conservation

/-! Histories of a service. An analysis takes its sites in order, or lets a task for each of them take
its steps in any order beside the others. Which way each analysis has gone cannot be seen in the
answers, nor in what the service remembers. -/
namespace Wiring

namespace AnalysisService

/-- What a service may answer to a call, and the service it may be then. -/
inductive May (s : AnalysisService) :
    ServiceCall → Option AnalysisOutcome → AnalysisService → Prop where
  | inOrder (c : ServiceCall) : s.May c (s.call c).1 (s.call c).2
  | sideBySide (sites : List InvocationSite) {p : Pass} {extractions : List Extraction}
      (hparallel : s.options.parallel = true)
      (hrun : (Pass.start s.cache sites).Reaches s.extractor p)
      (hresults : p.results = extractions.map some) :
      s.May (.analyze sites) (some (.ofExtractions s.options.cycleDetection extractions))
        { s with cache := p.cache }

/-- Calls made one after the other, with the answers that they got. -/
inductive History :
    AnalysisService → List ServiceCall → List (Option AnalysisOutcome) → AnalysisService → Prop where
  | nil (s : AnalysisService) : History s [] [] s
  | cons {s next last : AnalysisService} {c : ServiceCall} {answer : Option AnalysisOutcome}
      {calls : List ServiceCall} {answers : List (Option AnalysisOutcome)}
      (h : s.May c answer next) (rest : History next calls answers last) :
      History s (c :: calls) (answer :: answers) last

/-- A service for a model and options that was handed some sites since it was last empty. It remembers
what extraction finds for them, and has asked its cache once for each. -/
structure Remembers (s : AnalysisService) (model : SymbolPort) (options : AnalysisOptions)
    (handed : List InvocationSite) : Prop where
  model_eq : s.model = model
  options_eq : s.options = options
  reached : s.cache.Reached (.ofOptions model options)
  mem_entries_iff : ∀ entry, entry ∈ s.cache.entries ↔
    entry.1 ∈ handed ∧ (Extractor.ofOptions model options).extract entry.1 = .ok entry.2
  asked : s.cache.hits + s.cache.misses = handed.length

variable {s s' : AnalysisService} {model : SymbolPort} {options : AnalysisOptions}
variable {handed sites : List InvocationSite} {c : ServiceCall} {answer : Option AnalysisOutcome}

theorem Remembers.serves (h : s.Remembers model options handed) : s.Serves model options :=
  ⟨h.model_eq, h.options_eq, h.reached.faithful_distinct.1⟩

theorem Remembers.extractor_eq (h : s.Remembers model options handed) :
    s.extractor = .ofOptions model options := by
  rw [extractor, h.model_eq, h.options_eq]

theorem remembers_new (model : SymbolPort) (options : AnalysisOptions) :
    Remembers { model, options } model options [] :=
  ⟨rfl, rfl, .new, by simp, rfl⟩

theorem Remembers.clearCache (h : s.Remembers model options handed) :
    s.clearCache.Remembers model options [] :=
  ⟨h.model_eq, h.options_eq, h.reached.clear, by simp [AnalysisService.clearCache, Cache.clear], rfl⟩

/-- A finished pass, whatever its order, adds its sites to what the service was handed. -/
theorem Remembers.pass (h : s.Remembers model options handed) {p : Pass}
    (hrun : (Pass.start s.cache sites).Reaches s.extractor p) (hdone : p.Finished) :
    Remembers { s with cache := p.cache } model options (handed ++ sites) := by
  rw [h.extractor_eq] at hrun
  obtain ⟨hfaithful, hdistinct⟩ := h.reached.faithful_distinct
  have hfollows := (Pass.follows_start hfaithful hdistinct sites).reaches hrun
  refine ⟨h.model_eq, h.options_eq, h.reached.sideBySide sites hrun hdone, fun entry => ?_, ?_⟩
  · rw [hfollows.mem_entries_iff hdone, h.mem_entries_iff, List.mem_append, or_and_right]
  · rw [hfollows.counted_finished hdone, h.asked, List.length_append]

theorem Remembers.call (h : s.Remembers model options handed) (c : ServiceCall) :
    (s.call c).2.Remembers model options (c.handedAfter handed) := by
  cases c with
  | analyze sites =>
    exact h.pass (Pass.reaches_extractAll s.extractor s.cache sites [])
      (Pass.finished_zip_done _ _ _)
  | clearCache => exact h.clearCache

/-- Whichever way a call goes, its answer is that of a new service. -/
theorem Remembers.may (h : s.Remembers model options handed) (hmay : s.May c answer s') :
    answer = c.newAnswer model options ∧
      s'.Remembers model options (c.handedAfter handed) := by
  cases hmay with
  | inOrder c => exact ⟨(h.serves.call c).1, h.call c⟩
  | @sideBySide sites p extractions hparallel hrun hresults =>
    have hdone : p.Finished := by simp [Pass.Finished, hresults]
    refine ⟨?_, h.pass hrun hdone⟩
    rw [h.extractor_eq] at hrun
    rw [ServiceCall.newAnswer, analyze_eq, Pass.extractions_eq h.reached hrun hresults, h.options_eq]

/-- In every history, with each analysis in an order of its own, a service answers as new ones, and
remembers what extraction finds for the sites that it was handed since it was last cleared. -/
theorem Remembers.history {calls : List ServiceCall} {answers : List (Option AnalysisOutcome)}
    (h : s.Remembers model options handed) (hhistory : History s calls answers s') :
    answers = calls.map (ServiceCall.newAnswer model options) ∧
      s'.Remembers model options (calls.foldl ServiceCall.handedAfter handed) := by
  -- each step is taken by a service that remembers what the steps before handed in
  induction hhistory generalizing handed with
  | nil s => exact ⟨rfl, h⟩
  | cons hmay _ ih =>
    obtain ⟨hanswer, hnext⟩ := h.may hmay
    obtain ⟨hanswers, hlast⟩ := ih hnext
    exact ⟨List.cons_eq_cons.mpr ⟨hanswer, hanswers⟩, hlast⟩

theorem history_after (s : AnalysisService) (calls : List ServiceCall) :
    History s calls (s.answers calls) (s.after calls) := by
  induction calls generalizing s with
  | nil => exact .nil s
  | cons c rest ih => exact .cons (.inOrder c) (ih (s.call c).2)

/-- Services that were handed the same sites remember the same, if not in the same order. -/
theorem Remembers.perm_entries (h : s.Remembers model options handed)
    (h' : s'.Remembers model options handed) : s.cache.entries.Perm s'.cache.entries := by
  rw [List.perm_ext_iff_of_nodup (List.Nodup.of_map Prod.fst h.reached.faithful_distinct.2)
    (List.Nodup.of_map Prod.fst h'.reached.faithful_distinct.2)]
  intro entry
  rw [h.mem_entries_iff, h'.mem_entries_iff]

/-- Whichever way its analyses have gone, a service has answered each call as a new one does, and has
the memory and has asked it as often as if they had gone in order. -/
theorem history_agrees {calls : List ServiceCall} {answers : List (Option AnalysisOutcome)}
    (hhistory : History { model, options } calls answers s) :
    let inOrder := AnalysisService.after { model, options } calls
    answers = calls.map (ServiceCall.newAnswer model options) ∧
      s.cache.entries.Perm inOrder.cache.entries ∧
      s.cache.hits + s.cache.misses = inOrder.cache.hits + inOrder.cache.misses := by
  intro inOrder
  obtain ⟨hanswers, hremembers⟩ := (remembers_new model options).history hhistory
  obtain ⟨_, hinOrder⟩ := (remembers_new model options).history (history_after _ calls)
  exact ⟨hanswers, hremembers.perm_entries hinOrder, hremembers.asked.trans hinOrder.asked.symm⟩

end AnalysisService
end Wiring
