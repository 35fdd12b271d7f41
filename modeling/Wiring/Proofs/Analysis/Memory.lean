import Wiring.Analysis.Service

/-! The memory of a service cannot be seen in its answers. Every entry of a faithful cache is what
extraction of its site gives now, so a remembered site and a site extracted anew are alike; and
since an entry is never a rejection, a rejected site is extracted and reported on every pass. -/
namespace Wiring

/-- Whether extraction rejects a site. -/
def Extractor.rejects (e : Extractor) (site : InvocationSite) : Bool := (e.extract site).isRejection

/-- What the cache holds for a site is what extraction of the site gives. -/
def Cache.Faithful (e : Extractor) (c : Cache) : Prop :=
  ∀ entry ∈ c.entries, e.extract entry.1 = .ok entry.2

namespace Cache

variable {e : Extractor} {c : Cache}

theorem faithful_empty (e : Extractor) : Faithful e {} := by
  intro entry hmem
  contradiction

theorem Faithful.extract_of_find? (h : Faithful e c) {site : InvocationSite}
    {extracted : Option RegistrationRecord} (hfind : c.find? site = some extracted) :
    e.extract site = .ok extracted := by
  obtain ⟨before, after, hentries, _⟩ := List.lookup_eq_some_iff.mp hfind
  exact h (site, extracted) (by simp [hentries])

theorem Faithful.insert (h : Faithful e c) {site : InvocationSite}
    {extracted : Option RegistrationRecord} (hextract : e.extract site = .ok extracted) :
    Faithful e (c.insert site extracted) := by
  intro entry hmem
  rcases List.mem_cons.mp hmem with rfl | hold
  · exact hextract
  · exact h entry (List.mem_filter.mp hold).1

/-- One question to a faithful cache is answered as by extraction and leaves it faithful. -/
theorem Faithful.extract (h : Faithful e c) (site : InvocationSite) :
    (c.extract e site).1 = e.extract site ∧ Faithful e (c.extract e site).2 := by
  unfold Cache.extract Cache.get
  cases hfind : c.find? site with
  | some extracted => exact ⟨(h.extract_of_find? hfind).symm, h⟩
  | none =>
    cases hextract : e.extract site with
    | ok extracted =>
      have hmissed : Faithful e { c with misses := c.misses + 1 } := h
      exact ⟨rfl, hmissed.insert hextract⟩
    -- a rejection is not stored
    | error rejection => exact ⟨rfl, h⟩

theorem Faithful.extractAll (h : Faithful e c) (sites : List InvocationSite) :
    (extractAll e c sites).1 = sites.map e.extract ∧ Faithful e (extractAll e c sites).2 := by
  induction sites generalizing c with
  | nil => exact ⟨rfl, h⟩
  | cons site rest ih =>
    obtain ⟨hanswer, hnext⟩ := h.extract site
    obtain ⟨hrest, hlast⟩ := ih hnext
    refine ⟨?_, hlast⟩
    change (c.extract e site).1 :: (Cache.extractAll e (c.extract e site).2 rest).1 = _
    rw [hanswer, hrest, List.map_cons]

end Cache

/-- What can be asked of a service. -/
inductive ServiceCall where
  | analyze (sites : List InvocationSite)
  | clearCache

namespace AnalysisService

/-- The service after one call, with the outcome of an analysis. -/
def call (s : AnalysisService) : ServiceCall → Option AnalysisOutcome × AnalysisService
  | .analyze sites => (some (s.analyze sites).1, (s.analyze sites).2)
  | .clearCache => (none, s.clearCache)

/-- The answers to calls made one after the other on one service. -/
def answers : AnalysisService → List ServiceCall → List (Option AnalysisOutcome)
  | _, [] => []
  | s, c :: rest => (s.call c).1 :: answers (s.call c).2 rest

/-- The service after calls made one after the other. -/
def after (s : AnalysisService) (calls : List ServiceCall) : AnalysisService :=
  calls.foldl (fun s c => (s.call c).2) s

/-- A service for a model and options whose memory is faithful. -/
structure Serves (s : AnalysisService) (model : SymbolPort) (options : AnalysisOptions) :
    Prop where
  model_eq : s.model = model
  options_eq : s.options = options
  faithful : s.cache.Faithful (.ofOptions model options)

variable {s : AnalysisService} {model : SymbolPort} {options : AnalysisOptions}

theorem serves_new (model : SymbolPort) (options : AnalysisOptions) :
    Serves { model, options } model options :=
  ⟨rfl, rfl, Cache.faithful_empty _⟩

/-- A pass depends on the sites alone, and the memory stays faithful. -/
theorem Serves.analyze (h : s.Serves model options) (sites : List InvocationSite) :
    (s.analyze sites).1 = .ofExtractions options.cycleDetection
      (sites.map (Extractor.ofOptions model options).extract) ∧
    (s.analyze sites).2.Serves model options := by
  obtain ⟨rfl, rfl, hfaithful⟩ := h
  obtain ⟨hextractions, hcache⟩ := hfaithful.extractAll sites
  constructor
  · rw [← hextractions]
    rfl
  · exact ⟨rfl, rfl, hcache⟩

theorem Serves.clearCache (h : s.Serves model options) : s.clearCache.Serves model options :=
  ⟨h.model_eq, h.options_eq, Cache.faithful_empty _⟩

end AnalysisService

/-- An analysis validates what extraction gives for each of its sites. -/
theorem analyze_eq (model : SymbolPort) (options : AnalysisOptions)
    (sites : List InvocationSite) :
    analyze model options sites = .ofExtractions options.cycleDetection
      (sites.map (Extractor.ofOptions model options).extract) :=
  ((AnalysisService.serves_new model options).analyze sites).1

/-- What a service without a past answers. -/
def ServiceCall.newAnswer (model : SymbolPort) (options : AnalysisOptions) :
    ServiceCall → Option AnalysisOutcome
  | .analyze sites => some (Wiring.analyze model options sites)
  | .clearCache => none

theorem AnalysisService.Serves.call {s : AnalysisService} {model : SymbolPort}
    {options : AnalysisOptions} (h : s.Serves model options) (c : ServiceCall) :
    (s.call c).1 = c.newAnswer model options ∧ (s.call c).2.Serves model options := by
  cases c with
  | analyze sites =>
    obtain ⟨houtcome, hserves⟩ := h.analyze sites
    refine ⟨?_, hserves⟩
    change some (s.analyze sites).1 = some (Wiring.analyze model options sites)
    rw [houtcome, analyze_eq]
  | clearCache => exact ⟨rfl, h.clearCache⟩

theorem AnalysisService.Serves.answers_eq {s : AnalysisService} {model : SymbolPort}
    {options : AnalysisOptions} (h : s.Serves model options) (calls : List ServiceCall) :
    s.answers calls = calls.map (ServiceCall.newAnswer model options) := by
  induction calls generalizing s with
  | nil => rfl
  | cons c rest ih =>
    obtain ⟨hanswer, hnext⟩ := h.call c
    rw [AnalysisService.answers, hanswer, ih hnext, List.map_cons]

/-- Whatever was asked of a service before, it answers as a new one; and each analysis reports, in
the order of its sites, everything for which extraction rejects them. -/
theorem answers_new_service (model : SymbolPort) (options : AnalysisOptions)
    (calls : List ServiceCall) :
    AnalysisService.answers { model, options } calls =
      calls.map (ServiceCall.newAnswer model options) ∧
    ∀ sites : List InvocationSite,
      (sites.flatMap fun site => ((Extractor.ofOptions model options).extract site).diagnostics) <+:
        (analyze model options sites).diagnostics := by
  refine ⟨(AnalysisService.serves_new model options).answers_eq calls, fun sites => ?_⟩
  rw [analyze_eq, ← List.flatMap_map]
  exact List.prefix_append _ _

end Wiring
