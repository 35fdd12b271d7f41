import Mathlib.Algebra.GroupWithZero.Nat
import Mathlib.Data.List.Nodup
import Mathlib.Logic.Relation
import Wiring.Analysis.Interleaving
import Wiring.Model.Query
import Wiring.Proofs.Analysis.Memory

/-! The order in which the tasks of a pass take their steps cannot be seen in what the pass leaves
behind. Two tasks for one site may both miss and both store, but what they store is what extraction
gives, and so is every entry that was there before; a finished pass has stored exactly that for its
sites. Extraction in order is one of the interleavings. -/
namespace Wiring

namespace Cache

/-- Every site is stored once. -/
def Distinct (c : Cache) : Prop := (c.entries.map Prod.fst).Nodup

/-- The cache has come from `origin` by storing what extraction finds for some of the sites. -/
structure GrownFrom (c : Cache) (e : Extractor) (origin : Cache) (sites : List InvocationSite) :
    Prop where
  faithful : c.Faithful e
  distinct : c.Distinct
  kept : ∀ entry ∈ origin.entries, entry ∈ c.entries
  added : ∀ entry ∈ c.entries, entry ∈ origin.entries ∨ entry.1 ∈ sites

variable {e : Extractor} {origin c : Cache} {sites : List InvocationSite} {site : InvocationSite}
variable {found : Option RegistrationRecord}

theorem distinct_empty : Distinct {} := List.nodup_nil

theorem mem_entries_of_find? (h : c.find? site = some found) : (site, found) ∈ c.entries := by
  obtain ⟨before, after, hentries, _⟩ := List.lookup_eq_some_iff.mp h
  simp [hentries]

theorem mem_entries_insert : (site, found) ∈ (c.insert site found).entries := List.mem_cons_self

theorem Distinct.insert (h : c.Distinct) (site : InvocationSite)
    (found : Option RegistrationRecord) : (c.insert site found).Distinct := by
  have hothers : site ∉ (c.entries.filter fun entry => entry.1 != site).map Prod.fst := by
    intro hmem
    obtain ⟨entry, hentry, hsite⟩ := List.mem_map.mp hmem
    simp [hsite] at hentry
  exact List.nodup_cons.mpr ⟨hothers, h.sublist (List.filter_sublist.map _)⟩

/-- An entry of a faithful cache can only be replaced by itself. -/
theorem Faithful.mem_entries_insert (h : c.Faithful e) (hextract : e.extract site = .ok found)
    {entry : InvocationSite × Option RegistrationRecord} (hmem : entry ∈ c.entries) :
    entry ∈ (c.insert site found).entries := by
  obtain ⟨other, stored⟩ := entry
  by_cases hsite : other = site
  · subst hsite
    have hsame : (.ok stored : Extraction) = .ok found := (h _ hmem).symm.trans hextract
    cases hsame
    exact Cache.mem_entries_insert
  · exact List.mem_cons_of_mem _ (List.mem_filter.mpr ⟨hmem, by simp [hsite]⟩)

theorem Faithful.grownFrom_self (hfaithful : c.Faithful e) (hdistinct : c.Distinct)
    (sites : List InvocationSite) : c.GrownFrom e c sites :=
  ⟨hfaithful, hdistinct, fun _ h => h, fun _ h => .inl h⟩

theorem GrownFrom.insert (h : c.GrownFrom e origin sites) (hsite : site ∈ sites)
    (hextract : e.extract site = .ok found) : (c.insert site found).GrownFrom e origin sites where
  faithful := h.faithful.insert hextract
  distinct := h.distinct.insert site found
  kept entry hentry := h.faithful.mem_entries_insert hextract (h.kept entry hentry)
  added entry hentry := by
    rcases List.mem_cons.mp hentry with rfl | hold
    · exact .inr hsite
    · exact h.added entry (List.mem_filter.mp hold).1

/-- The counters of a cache do not matter to its entries. -/
theorem GrownFrom.of_entries_eq (h : c.GrownFrom e origin sites) {c' : Cache}
    (hentries : c'.entries = c.entries) : c'.GrownFrom e origin sites where
  faithful := by
    unfold Faithful
    exact hentries ▸ h.faithful
  distinct := by
    unfold Distinct
    exact hentries ▸ h.distinct
  kept := hentries ▸ h.kept
  added := hentries ▸ h.added

end Cache

namespace Progress

variable {e : Extractor} {origin c c' : Cache} {sites : List InvocationSite}
variable {site : InvocationSite} {progress next : Progress}

/-- Whether the cache has been asked. -/
def hasAsked : Progress → Bool
  | .waiting => false
  | _ => true

/-- The most steps a task has before it. -/
def stepsLeft : Progress → Nat
  | .waiting => 3
  | .missed => 2
  | .extracted _ => 1
  | .done _ => 0

/-- What has been found for a site is what extraction gives, and it is stored unless it is a
rejection. -/
def Sound (e : Extractor) (c : Cache) (site : InvocationSite) : Progress → Prop
  | .waiting => True
  | .missed => True
  | .extracted found => e.extract site = .ok found
  | .done extraction =>
    e.extract site = extraction ∧ ∀ found, extraction = .ok found → (site, found) ∈ c.entries

theorem Sound.of_kept (h : progress.Sound e c site)
    (hkept : ∀ entry ∈ c.entries, entry ∈ c'.entries) : progress.Sound e c' site := by
  cases progress with
  | waiting => trivial
  | missed => trivial
  | extracted found => exact h
  | done extraction => exact ⟨h.1, fun found hfound => hkept _ (h.2 found hfound)⟩

theorem sound_done_ok {found : Option RegistrationRecord} (hextract : e.extract site = .ok found)
    (hmem : (site, found) ∈ c.entries) : (done (.ok found)).Sound e c site := by
  refine ⟨hextract, fun other hother => ?_⟩
  cases hother
  exact hmem

theorem sound_done_error {rejection : Rejection} (hextract : e.extract site = .error rejection) :
    (done (.error rejection)).Sound e c site :=
  ⟨hextract, nofun⟩

/-- What the steps of a task are: it asks, it extracts, it stores. -/
theorem next?_cases (h : progress.next? e site c = some (next, c')) :
    (progress = .waiting ∧ c'.entries = c.entries ∧
      c'.hits + c'.misses = c.hits + c.misses + 1 ∧
      (next = .missed ∨ ∃ found, c.find? site = some found ∧ next = .done (.ok found))) ∨
    (progress = .missed ∧ c' = c ∧
      ((∃ found, e.extract site = .ok found ∧ next = .extracted found) ∨
        ∃ rejection, e.extract site = .error rejection ∧ next = .done (.error rejection))) ∨
    ∃ found, progress = .extracted found ∧ c' = c.insert site found ∧
      next = .done (.ok found) := by
  cases progress with
  | waiting =>
    refine .inl ⟨rfl, ?_⟩
    unfold next? Cache.get at h
    cases hfind : c.find? site with
    | some found =>
      simp only [hfind] at h
      cases h
      exact ⟨rfl, Nat.add_right_comm _ _ _, .inr ⟨found, rfl, rfl⟩⟩
    | none =>
      simp only [hfind] at h
      cases h
      exact ⟨rfl, (Nat.add_assoc _ _ _).symm, .inl rfl⟩
  | missed =>
    refine .inr (.inl ⟨rfl, ?_⟩)
    unfold next? at h
    cases hextract : e.extract site with
    | ok found =>
      simp only [hextract] at h
      cases h
      exact ⟨rfl, .inl ⟨found, rfl, rfl⟩⟩
    | error rejection =>
      simp only [hextract] at h
      cases h
      exact ⟨rfl, .inr ⟨rejection, rfl, rfl⟩⟩
  | extracted found =>
    cases h
    exact .inr (.inr ⟨found, rfl, rfl, rfl⟩)
  | done extraction => cases h

theorem stepsLeft_lt (h : progress.next? e site c = some (next, c')) :
    next.stepsLeft < progress.stepsLeft := by
  rcases next?_cases h with ⟨rfl, _, _, rfl | ⟨_, _, rfl⟩⟩ |
    ⟨rfl, _, ⟨_, _, rfl⟩ | ⟨_, _, rfl⟩⟩ | ⟨_, rfl, _, rfl⟩ <;> simp [stepsLeft]

theorem exists_next? (e : Extractor) (site : InvocationSite) (c : Cache)
    (h : progress.result? = none) : ∃ next c', progress.next? e site c = some (next, c') := by
  cases progress with
  | waiting =>
    unfold next?
    cases c.get site with
    | mk answer c' => cases answer <;> exact ⟨_, _, rfl⟩
  | missed =>
    unfold next?
    cases e.extract site <;> exact ⟨_, _, rfl⟩
  | extracted found => exact ⟨_, _, rfl⟩
  | done extraction => cases h

/-- What one step of a task does to the cache and to the task itself. -/
theorem Sound.next? (hsound : progress.Sound e c site) (hcache : c.GrownFrom e origin sites)
    (hsite : site ∈ sites) (h : progress.next? e site c = some (next, c')) :
    c'.GrownFrom e origin sites ∧ (∀ entry ∈ c.entries, entry ∈ c'.entries) ∧
      next.Sound e c' site ∧ next.hasAsked = true ∧
      c'.hits + c'.misses + (if progress.hasAsked then 1 else 0) = c.hits + c.misses + 1 := by
  rcases next?_cases h with ⟨rfl, hentries, hcount, hnext⟩ | ⟨rfl, rfl, hnext⟩ |
    ⟨found, rfl, rfl, rfl⟩
  · refine ⟨hcache.of_entries_eq hentries, hentries ▸ fun _ hmem => hmem, ?_, ?_, hcount⟩
    · rcases hnext with rfl | ⟨found, hfind, rfl⟩
      · trivial
      · exact sound_done_ok (hcache.faithful.extract_of_find? hfind)
          (hentries ▸ Cache.mem_entries_of_find? hfind)
    · rcases hnext with rfl | ⟨found, _, rfl⟩ <;> rfl
  · refine ⟨hcache, fun _ hmem => hmem, ?_, ?_, rfl⟩
    · rcases hnext with ⟨found, hextract, rfl⟩ | ⟨rejection, hextract, rfl⟩
      · exact hextract
      · exact sound_done_error hextract
    · rcases hnext with ⟨found, _, rfl⟩ | ⟨rejection, _, rfl⟩ <;> rfl
  · exact ⟨hcache.insert hsite hsound,
      fun entry hmem => hcache.faithful.mem_entries_insert hsound hmem,
      sound_done_ok hsound Cache.mem_entries_insert, rfl, rfl⟩

end Progress

namespace Pass

variable {e : Extractor} {c : Cache} {sites : List InvocationSite} {p q : Pass}

/-- What any number of steps, taken in any order, can lead to. -/
def Reaches (e : Extractor) : Pass → Pass → Prop := Relation.ReflTransGen (Step e)

/-- Every task is done. -/
def Finished (p : Pass) : Prop := none ∉ p.results

/-- What holds of every pass over `sites` that started from the cache `c`. -/
structure Follows (p : Pass) (e : Extractor) (c : Cache) (sites : List InvocationSite) : Prop where
  sites_eq : p.tasks.map Prod.fst = sites
  cache : p.cache.GrownFrom e c sites
  sound : ∀ task ∈ p.tasks, task.2.Sound e p.cache task.1
  counted : p.cache.hits + p.cache.misses =
    c.hits + c.misses + p.tasks.countP fun task => task.2.hasAsked

theorem follows_start (hfaithful : c.Faithful e) (hdistinct : c.Distinct)
    (sites : List InvocationSite) : (start c sites).Follows e c sites where
  sites_eq := by simp [start, Function.comp_def]
  cache := hfaithful.grownFrom_self hdistinct sites
  sound task htask := by
    obtain ⟨site, _, rfl⟩ := List.mem_map.mp htask
    trivial
  counted := by
    have hnone : (start c sites).tasks.countP (fun task => task.2.hasAsked) = 0 := by
      simp [start, Progress.hasAsked]
    rw [hnone]
    rfl

theorem Follows.step (h : p.Follows e c sites) (hstep : Step e p q) : q.Follows e c sites := by
  obtain @⟨before, after, site, progress, next, c₁, c₂, hnext⟩ := hstep
  have hsite : site ∈ sites := by
    rw [← h.sites_eq]
    simp
  have hsound : progress.Sound e c₁ site := h.sound (site, progress) (by simp)
  obtain ⟨hcache, hkept, hsound', hasked, hcount⟩ := hsound.next? h.cache hsite hnext
  have hothers : ∀ task ∈ before ++ after, task.2.Sound e c₂ task.1 := by
    intro task htask
    refine (h.sound task ?_).of_kept hkept
    rcases List.mem_append.mp htask with hbefore | hafter
    · exact List.mem_append_left _ hbefore
    · exact List.mem_append_right _ (List.mem_cons_of_mem _ hafter)
  refine ⟨?_, hcache, ?_, ?_⟩
  · rw [← h.sites_eq]
    simp
  · intro task htask
    rcases List.mem_append.mp htask with hbefore | hrest
    · exact hothers task (List.mem_append_left _ hbefore)
    · rcases List.mem_cons.mp hrest with rfl | hafter
      · exact hsound'
      · exact hothers task (List.mem_append_right _ hafter)
  · have hcounted := h.counted
    simp only [List.countP_append, List.countP_cons, hasked, if_true] at hcounted ⊢
    omega

theorem Follows.reaches (h : p.Follows e c sites) (hrun : p.Reaches e q) :
    q.Follows e c sites := by
  induction hrun with
  | refl => exact h
  | tail _ hstep ih => exact ih.step hstep

theorem Finished.exists_done (h : p.Finished) {task : InvocationSite × Progress}
    (htask : task ∈ p.tasks) : ∃ extraction, task.2 = .done extraction := by
  obtain ⟨site, progress⟩ := task
  cases progress with
  | done extraction => exact ⟨extraction, rfl⟩
  | _ => exact absurd (List.mem_map.mpr ⟨_, htask, rfl⟩) h

/-- The results of a finished pass are those of extraction, each at the place of its site. -/
theorem Follows.results_eq (h : p.Follows e c sites) (hdone : p.Finished) :
    p.results = sites.map fun site => some (e.extract site) := by
  unfold results
  rw [← h.sites_eq, List.map_map]
  apply List.map_congr_left
  intro task htask
  obtain ⟨extraction, hextraction⟩ := hdone.exists_done htask
  have hsound := h.sound task htask
  rw [hextraction] at hsound ⊢
  exact congrArg some hsound.1.symm

/-- A finished pass has stored what extraction finds for its sites, beside what was there. -/
theorem Follows.mem_entries_iff (h : p.Follows e c sites) (hdone : p.Finished)
    {entry : InvocationSite × Option RegistrationRecord} :
    entry ∈ p.cache.entries ↔
      entry ∈ c.entries ∨ entry.1 ∈ sites ∧ e.extract entry.1 = .ok entry.2 := by
  constructor
  · intro hmem
    rcases h.cache.added entry hmem with hold | hsite
    · exact .inl hold
    · exact .inr ⟨hsite, h.cache.faithful entry hmem⟩
  · rintro (hold | ⟨hsite, hextract⟩)
    · exact h.cache.kept entry hold
    · rw [← h.sites_eq] at hsite
      obtain ⟨task, htask, hfst⟩ := List.mem_map.mp hsite
      obtain ⟨extraction, hextraction⟩ := hdone.exists_done htask
      have hsound := h.sound task htask
      rw [hextraction, hfst] at hsound
      exact hsound.2 entry.2 (hsound.1.symm.trans hextract)

theorem Follows.counted_finished (h : p.Follows e c sites) (hdone : p.Finished) :
    p.cache.hits + p.cache.misses = c.hits + c.misses + sites.length := by
  have hall : p.tasks.countP (fun task => task.2.hasAsked) = p.tasks.length := by
    rw [List.countP_eq_length]
    intro task htask
    obtain ⟨extraction, hextraction⟩ := hdone.exists_done htask
    rw [hextraction]
    rfl
  rw [h.counted, hall, ← h.sites_eq, List.length_map]

/-- Two finished passes over the same sites and from the same cache leave the same entries. -/
theorem Follows.perm_entries (hp : p.Follows e c sites) (hq : q.Follows e c sites)
    (hpdone : p.Finished) (hqdone : q.Finished) : p.cache.entries.Perm q.cache.entries := by
  rw [List.perm_ext_iff_of_nodup (List.Nodup.of_map Prod.fst hp.cache.distinct)
    (List.Nodup.of_map Prod.fst hq.cache.distinct)]
  intro entry
  rw [hp.mem_entries_iff hpdone, hq.mem_entries_iff hqdone]

/-- The most steps a pass has before it. -/
def stepsLeft (p : Pass) : Nat := (p.tasks.map fun task => task.2.stepsLeft).sum

/-- A pass in which some task is not done can go on, and comes closer to its end. -/
theorem exists_step (e : Extractor) (h : ¬ p.Finished) :
    ∃ q, Step e p q ∧ q.stepsLeft < p.stepsLeft := by
  obtain ⟨cache, tasks⟩ := p
  obtain ⟨⟨site, progress⟩, htask, hnone⟩ := List.mem_map.mp (not_not.mp h)
  obtain ⟨before, after, rfl⟩ := List.append_of_mem htask
  obtain ⟨next, c', hnext⟩ := Progress.exists_next? e site cache hnone
  refine ⟨_, .task before after hnext, ?_⟩
  have hlt : next.stepsLeft < progress.stepsLeft := Progress.stepsLeft_lt hnext
  simpa [stepsLeft] using hlt

/-- Whatever steps were taken, a pass can be brought to its end. -/
theorem exists_finished (e : Extractor) (p : Pass) : ∃ q, p.Reaches e q ∧ q.Finished := by
  by_cases hdone : p.Finished
  · exact ⟨p, .refl, hdone⟩
  · obtain ⟨q, hstep, hlt⟩ := exists_step e hdone
    obtain ⟨r, hrun, hfinished⟩ := exists_finished e q
    exact ⟨r, .head hstep hrun, hfinished⟩
termination_by p.stepsLeft

/-- The task of one site, when no other comes between its steps, extracts as is done in order. -/
theorem reaches_extract (e : Extractor) (c : Cache) (site : InvocationSite)
    (before after : List (InvocationSite × Progress)) :
    Reaches e ⟨c, before ++ (site, .waiting) :: after⟩
      ⟨(c.extract e site).2, before ++ (site, .done (c.extract e site).1) :: after⟩ := by
  unfold Cache.extract
  cases hget : c.get site with
  | mk answer c₁ =>
    cases answer with
    | some found => exact .single (.task before after (by simp [Progress.next?, hget]))
    | none =>
      have hmissed : Step e ⟨c, before ++ (site, .waiting) :: after⟩
          ⟨c₁, before ++ (site, .missed) :: after⟩ :=
        .task before after (by simp [Progress.next?, hget])
      cases hextract : e.extract site with
      | error rejection =>
        exact .tail (.single hmissed) (.task before after (by simp [Progress.next?, hextract]))
      | ok found =>
        have hextracted : Step e ⟨c₁, before ++ (site, .missed) :: after⟩
            ⟨c₁, before ++ (site, .extracted found) :: after⟩ :=
          .task before after (by simp [Progress.next?, hextract])
        exact .tail (.tail (.single hmissed) hextracted) (.task before after rfl)

/-- Extraction in order is one of the interleavings. -/
theorem reaches_extractAll (e : Extractor) (c : Cache) (sites : List InvocationSite)
    (before : List (InvocationSite × Progress)) :
    Reaches e ⟨c, before ++ (start c sites).tasks⟩
      ⟨(c.extractAll e sites).2,
        before ++ sites.zip ((c.extractAll e sites).1.map Progress.done)⟩ := by
  induction sites generalizing c before with
  | nil => exact .refl
  | cons site rest ih =>
    have hfirst := reaches_extract e c site before (start c rest).tasks
    have hrest := ih (c.extract e site).2 (before ++ [(site, .done (c.extract e site).1)])
    rw [List.append_assoc, List.append_assoc] at hrest
    exact hfirst.trans hrest

theorem finished_zip_done (c : Cache) (sites : List InvocationSite)
    (extractions : List Extraction) :
    Finished ⟨c, sites.zip (extractions.map Progress.done)⟩ := by
  intro hmem
  obtain ⟨⟨site, progress⟩, htask, hnone⟩ := List.mem_map.mp hmem
  obtain ⟨extraction, _, rfl⟩ := List.mem_map.mp (List.of_mem_zip htask).2
  cases hnone

end Pass

/-- What a cache can hold after passes in order, passes side by side and clearings. -/
inductive Cache.Reached (e : Extractor) : Cache → Prop where
  | new : Reached e {}
  | clear {c : Cache} (h : Reached e c) : Reached e c.clear
  | inOrder {c : Cache} (h : Reached e c) (sites : List InvocationSite) :
    Reached e (c.extractAll e sites).2
  | sideBySide {c : Cache} {p : Pass} (h : Reached e c) (sites : List InvocationSite)
    (hrun : (Pass.start c sites).Reaches e p) (hdone : p.Finished) : Reached e p.cache

theorem Cache.Reached.faithful_distinct {e : Extractor} {c : Cache} (h : c.Reached e) :
    c.Faithful e ∧ c.Distinct := by
  induction h with
  | new => exact ⟨faithful_empty e, distinct_empty⟩
  | clear _ _ => exact ⟨faithful_empty e, distinct_empty⟩
  | inOrder _ sites ih =>
    have hfollows :=
      (Pass.follows_start ih.1 ih.2 sites).reaches (Pass.reaches_extractAll e _ sites [])
    exact ⟨hfollows.cache.faithful, hfollows.cache.distinct⟩
  | sideBySide _ sites hrun _ ih =>
    have hfollows := (Pass.follows_start ih.1 ih.2 sites).reaches hrun
    exact ⟨hfollows.cache.faithful, hfollows.cache.distinct⟩

/-- Every interleaving of a pass can be completed, and a completed one gives each site the result of
extraction in order, leaves the entries that extraction in order leaves, and has asked the cache
once for each site. -/
theorem interleavings_agree {e : Extractor} {c : Cache} (hreached : c.Reached e)
    (sites : List InvocationSite) :
    ∀ p, (Pass.start c sites).Reaches e p →
      (∃ q, p.Reaches e q ∧ q.Finished) ∧
      (p.Finished →
        p.results = (Cache.extractAll e c sites).1.map some ∧
        p.cache.entries.Perm (Cache.extractAll e c sites).2.entries ∧
        p.cache.hits + p.cache.misses = c.hits + c.misses + sites.length) := by
  intro p hrun
  obtain ⟨hfaithful, hdistinct⟩ := hreached.faithful_distinct
  have hstart := Pass.follows_start hfaithful hdistinct sites
  have hfollows := hstart.reaches hrun
  have hinOrder := hstart.reaches (Pass.reaches_extractAll e c sites [])
  refine ⟨Pass.exists_finished e p, fun hdone => ⟨?_, ?_, hfollows.counted_finished hdone⟩⟩
  · rw [hfollows.results_eq hdone, (hfaithful.extractAll sites).1, List.map_map]
    rfl
  · exact hfollows.perm_entries hinOrder hdone (Pass.finished_zip_done _ _ _)

/-- A call that registers a constant. -/
def clockCall : InvocationSite :=
  { methodName := "RegisterConstant"
    typeArguments := [⟨0, "IClock"⟩]
    arguments := []
    location := ⟨"Program.cs", 3, 9⟩
    binding := some ⟨"Wirebind.Registrations", false, []⟩ }

def clockRecord : RegistrationRecord :=
  { interface := ⟨0, "IClock"⟩
    concrete := ⟨0, "IClock"⟩
    constructorDependencies := []
    propertyDependencies := []
    contract := none
    kind := .constant
    location := ⟨"Program.cs", 3, 9⟩ }

def bareClock : SymbolModel := { types := #[{ name := "IClock" }] }

def clockExtractor : Extractor := .ofOptions bareClock {}

/-- Two tasks for one call have both asked before either stored, and both have stored. -/
def clockPass : Pass :=
  ⟨⟨[(clockCall, some clockRecord)], 0, 2⟩,
    [(clockCall, .done (.ok (some clockRecord))), (clockCall, .done (.ok (some clockRecord)))]⟩

theorem reaches_clockPass :
    (Pass.start {} [clockCall, clockCall]).Reaches clockExtractor clockPass := by
  have hasked : (Pass.start {} [clockCall, clockCall]).Reaches clockExtractor
      ⟨⟨[], 0, 2⟩, [(clockCall, .missed), (clockCall, .missed)]⟩ :=
    .tail (.single (.task [] [_] rfl)) (.task [_] [] rfl)
  have hextracted : Pass.Reaches clockExtractor
      ⟨⟨[], 0, 2⟩, [(clockCall, .missed), (clockCall, .missed)]⟩
      ⟨⟨[], 0, 2⟩,
        [(clockCall, .extracted (some clockRecord)), (clockCall, .extracted (some clockRecord))]⟩ :=
    .tail (.single (.task [] [_] rfl)) (.task [_] [] rfl)
  exact (hasked.trans hextracted).trans
    (.tail (.single (.task [] [_] rfl)) (.task [_] [] rfl))

/-- Extraction in order answers the second call from the cache, where both tasks had missed. -/
theorem interleavings_agree_clockPass :
    Cache.Reached clockExtractor {} ∧
    (Pass.start {} [clockCall, clockCall]).Reaches clockExtractor clockPass ∧
    clockPass.Finished ∧
    clockPass.cache.hits < (Cache.extractAll clockExtractor {} [clockCall, clockCall]).2.hits ∧
    clockPass.results = (Cache.extractAll clockExtractor {} [clockCall, clockCall]).1.map some ∧
    clockPass.cache.entries.Perm
      (Cache.extractAll clockExtractor {} [clockCall, clockCall]).2.entries ∧
    clockPass.cache.hits + clockPass.cache.misses = 2 := by
  have hdone : clockPass.Finished := by
    simp [Pass.Finished, Pass.results, clockPass, Progress.result?]
  obtain ⟨hresults, hentries, hcount⟩ :=
    (interleavings_agree .new [clockCall, clockCall] clockPass reaches_clockPass).2 hdone
  exact ⟨.new, reaches_clockPass, hdone, by decide +kernel, hresults, hentries, hcount⟩

end Wiring
