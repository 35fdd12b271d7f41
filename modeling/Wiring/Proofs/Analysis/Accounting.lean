import Mathlib.Data.Finset.Card
import Wiring.Proofs.Analysis.Interleaving

/-! The counters of a cache. A cache holds each accepted site that it was asked for once. It has
missed once for each of these, when it met them first, and again each time that it was asked for a
rejected site, since a rejection is not stored; every other question was a hit. -/
namespace Wiring

namespace Cache

/-- The sites that a cache holds. -/
def sites (c : Cache) : List InvocationSite := c.entries.map Prod.fst

/-- What the counters of a cache tell of the sites it was asked for since it was empty. -/
structure Accounts (c : Cache) (e : Extractor) (asked : List InvocationSite) : Prop where
  distinct : c.Distinct
  mem_sites_iff : ∀ site, site ∈ c.sites ↔ site ∈ asked ∧ e.rejects site = false
  misses_eq : c.misses = c.size + asked.countP e.rejects
  hits_add_misses : c.hits + c.misses = asked.length

variable {e : Extractor} {c c' : Cache} {asked : List InvocationSite} {site : InvocationSite}
variable {found : Option RegistrationRecord}

theorem accounts_empty (e : Extractor) : Accounts {} e [] where
  distinct := distinct_empty
  mem_sites_iff site := by simp [sites]
  misses_eq := rfl
  hits_add_misses := rfl

/-- What a question has to do to the cache: it is counted, it adds no site but the one that is asked
for and that only if it is accepted, and it is a miss for a site that is added or rejected. -/
theorem Accounts.ask (h : c.Accounts e asked) (hdistinct : c'.Distinct)
    (hsites : ∀ other, other ∈ c'.sites ↔ other ∈ c.sites ∨ other = site ∧ e.rejects site = false)
    (hmisses : c'.misses + c.size = c.misses + c'.size + if e.rejects site then 1 else 0)
    (hcount : c'.hits + c'.misses = c.hits + c.misses + 1) :
    c'.Accounts e (asked ++ [site]) where
  distinct := hdistinct
  mem_sites_iff other := by
    rw [hsites, h.mem_sites_iff, List.mem_append, List.mem_singleton, or_and_right]
    refine or_congr_right (and_congr_right fun hother => ?_)
    rw [hother]
  misses_eq := by
    have hbefore := h.misses_eq
    rw [List.countP_append, List.countP_singleton]
    omega
  hits_add_misses := by
    rw [hcount, h.hits_add_misses, List.length_append, List.length_singleton]

theorem mem_sites_of_find? (h : c.find? site = some found) : site ∈ c.sites :=
  List.mem_map_of_mem (mem_entries_of_find? h)

theorem notMem_sites_of_find? (h : c.find? site = none) : site ∉ c.sites := by
  intro hmem
  obtain ⟨entry, hentry, rfl⟩ := List.mem_map.mp hmem
  have hother := List.lookup_eq_none_iff.mp h entry hentry
  simp at hother

/-- A site that is new to the cache is stored beside all that was there. -/
theorem entries_insert_of_notMem (h : site ∉ c.sites) :
    (c.insert site found).entries = (site, found) :: c.entries := by
  unfold insert
  refine congrArg _ (List.filter_eq_self.mpr fun entry hentry => bne_iff_ne.mpr ?_)
  rintro rfl
  exact h (List.mem_map_of_mem hentry)

/-- One question is a hit, or a miss that is stored, or a miss that is a rejection. -/
theorem extract_cases (e : Extractor) (c : Cache) (site : InvocationSite) :
    (∃ found, c.find? site = some found ∧
      (c.extract e site).2 = { c with hits := c.hits + 1 }) ∨
    (∃ found, c.find? site = none ∧ e.extract site = .ok found ∧
      (c.extract e site).2 = insert { c with misses := c.misses + 1 } site found) ∨
    ∃ rejection, c.find? site = none ∧ e.extract site = .error rejection ∧
      (c.extract e site).2 = { c with misses := c.misses + 1 } := by
  unfold Cache.extract get
  cases c.find? site with
  | some found => exact .inl ⟨found, rfl, rfl⟩
  | none =>
    refine .inr ?_
    cases e.extract site with
    | ok found => exact .inl ⟨found, rfl, rfl, rfl⟩
    | error rejection => exact .inr ⟨rejection, rfl, rfl, rfl⟩

theorem Accounts.extract (h : c.Accounts e asked) (site : InvocationSite) :
    (c.extract e site).2.Accounts e (asked ++ [site]) := by
  obtain ⟨found, hfind, heq⟩ | ⟨found, hfind, hextract, heq⟩ | ⟨rejection, hfind, hextract, heq⟩ :=
    extract_cases e c site
  · have hsite := mem_sites_of_find? hfind
    have haccepted : e.rejects site = false := ((h.mem_sites_iff site).mp hsite).2
    rw [heq]
    refine h.ask h.distinct (fun other => ⟨.inl, ?_⟩) ?_ (Nat.add_right_comm _ _ _)
    · rintro (hother | ⟨rfl, _⟩)
      · exact hother
      · exact hsite
    · rw [haccepted]
      rfl
  · have haccepted : e.rejects site = false := by rw [Extractor.rejects, hextract]; rfl
    have hentries : ( insert { c with misses := c.misses + 1 } site found).entries =
        (site, found) :: c.entries := entries_insert_of_notMem (notMem_sites_of_find? hfind)
    rw [heq]
    refine h.ask (h.distinct.insert site found) (fun other => ?_) ?_ rfl
    · rw [sites, hentries, List.map_cons, List.mem_cons, haccepted, or_comm]
      exact or_congr_right (and_iff_left rfl).symm
    · rw [size, size, hentries, haccepted, List.length_cons]
      exact Nat.add_right_comm _ _ _
  · have hrejected : e.rejects site = true := by rw [Extractor.rejects, hextract]; rfl
    rw [heq]
    refine h.ask h.distinct (fun other => ?_) ?_ rfl
    · rw [hrejected]
      exact (or_iff_left fun hother => nomatch hother.2).symm
    · rw [hrejected]
      exact Nat.add_right_comm _ _ _

theorem Accounts.extractAll (h : c.Accounts e asked) (sites : List InvocationSite) :
    (c.extractAll e sites).2.Accounts e (asked ++ sites) := by
  induction sites generalizing c asked with
  | nil =>
    rw [List.append_nil]
    exact h
  | cons site rest ih =>
    have hrest := ih (h.extract site)
    rwa [List.append_assoc] at hrest

/-- The entries are as many as there are different accepted sites. -/
theorem Accounts.size_eq (h : c.Accounts e asked) :
    c.size = (asked.filter fun site => !e.rejects site).toFinset.card := by
  have hsites : c.sites.toFinset = (asked.filter fun site => !e.rejects site).toFinset := by
    ext site
    rw [List.mem_toFinset, List.mem_toFinset, h.mem_sites_iff, List.mem_filter]
    simp
  calc c.size = c.sites.length := (List.length_map Prod.fst).symm
    _ = c.sites.toFinset.card := (List.toFinset_card_of_nodup h.distinct).symm
    _ = _ := by rw [hsites]

theorem Accounts.hits_eq (h : c.Accounts e asked) :
    c.size ≤ (asked.countP fun site => !e.rejects site) ∧
      c.hits = (asked.countP fun site => !e.rejects site) - c.size := by
  have hsplit := List.length_eq_countP_add_countP (l := asked) e.rejects
  have hmisses := h.misses_eq
  have hcount := h.hits_add_misses
  have hle : c.size ≤ asked.countP fun site => !e.rejects site := by
    rw [h.size_eq, List.countP_eq_length_filter]
    exact List.toFinset_card_le _
  refine ⟨hle, ?_⟩
  simp only [Bool.not_eq_true, Bool.decide_eq_false] at hsplit
  omega

end Cache

/-- The sites a service was handed since its cache was last cleared, after one more call. -/
def ServiceCall.handedAfter (handed : List InvocationSite) : ServiceCall → List InvocationSite
  | .analyze sites => handed ++ sites
  | .clearCache => []

/-- The sites that calls have handed in since the last of them that cleared the cache. -/
def ServiceCall.handed (calls : List ServiceCall) : List InvocationSite :=
  calls.foldl handedAfter []

namespace AnalysisService

variable {s : AnalysisService} {model : SymbolPort} {options : AnalysisOptions}
variable {handed : List InvocationSite}

theorem Serves.accounts_call (h : s.Serves model options)
    (haccounts : s.cache.Accounts (.ofOptions model options) handed) (c : ServiceCall) :
    (s.call c).2.cache.Accounts (.ofOptions model options) (c.handedAfter handed) := by
  cases c with
  | analyze sites =>
    obtain ⟨rfl, rfl, _⟩ := h
    exact haccounts.extractAll sites
  | clearCache => exact Cache.accounts_empty _

theorem Serves.accounts_after (h : s.Serves model options)
    (haccounts : s.cache.Accounts (.ofOptions model options) handed) (calls : List ServiceCall) :
    (s.after calls).cache.Accounts (.ofOptions model options)
      (calls.foldl ServiceCall.handedAfter handed) := by
  induction calls generalizing s handed with
  | nil => exact haccounts
  | cons c rest ih => exact ih (h.call c).2 (h.accounts_call haccounts c)

end AnalysisService

/-- Since the last clearing, a service that works in order has stored every accepted site once and
has missed once for each of these and once for each time it was handed a rejected site. -/
theorem counters_since_clearing (model : SymbolPort) (options : AnalysisOptions)
    (calls : List ServiceCall) :
    let service : AnalysisService := { model, options := { options with parallel := false } }
    let cache := (service.after calls).cache
    let handed := ServiceCall.handed calls
    let accepts (site : InvocationSite) : Bool := !service.extractor.rejects site
    cache.size = (handed.filter accepts).toFinset.card ∧
      cache.misses = cache.size + handed.countP service.extractor.rejects ∧
      cache.size ≤ handed.countP accepts ∧
      cache.hits = handed.countP accepts - cache.size ∧
      cache.hits + cache.misses = handed.length := by
  intro service cache handed accepts
  have haccounts : cache.Accounts service.extractor handed :=
    (AnalysisService.serves_new model _).accounts_after (Cache.accounts_empty _) calls
  obtain ⟨hle, hhits⟩ := haccounts.hits_eq
  exact ⟨haccounts.size_eq, haccounts.misses_eq, hle, hhits, haccounts.hits_add_misses⟩

/-- A call whose type has no constructor is rejected and missed on both passes. -/
example :
    let broken : InvocationSite := { clockCall with methodName := "Register" }
    let model : SymbolModel := { types := #[{ name := "IClock" }] }
    let service : AnalysisService := { model, options := {} }
    let cache := (service.after [.analyze [clockCall, broken], .analyze [broken, clockCall]]).cache
    (cache.size, cache.misses, cache.hits) = (1, 3, 1) := by decide +kernel

end Wiring
