import Mathlib.Data.List.Find
import Wiring.Proofs.Graph.Agreement
import Wiring.Proofs.Graph.CycleMembers

/-! A registration that the others have nothing to do with. Whether it is there or not, the others
are kept or dropped alike, and what is reported for them is the same: no way of theirs comes to its
interface, so no cycle that is reported for it can suppress one of theirs. -/
namespace Wiring.Graph

/-! ## Whom a diagnostic is reported for -/

/-- A diagnostic with the record that it is reported for. -/
structure Attribution where
  reporter : RegistrationRecord
  diagnostic : Diagnostic
  deriving DecidableEq, Repr

/-- The records whose interface is among `seen` or that of an earlier record. -/
def repeating : List String → List RegistrationRecord → List RegistrationRecord
  | _, [] => []
  | seen, r :: rest =>
    if r.key ∈ seen then r :: repeating seen rest else repeating (r.key :: seen) rest

def repetition (r : RegistrationRecord) : Attribution :=
  ⟨r, .interfaceRegisteredMultipleTimes r.key, r.location⟩

/-- What is reported for the records, one after the other, when the cycles in `reported` are
reported already. -/
def recordAttributions (records : List RegistrationRecord) (detection : CycleDetection) :
    List (List String) → List RegistrationRecord → List Attribution
  | _, [] => []
  | reported, r :: rest =>
    let paths := freshPaths reported (returnPaths records detection r)
    (paths.1.map (ReturnPath.diagnostic r) ++ (lazyMismatches records r).map (lazyDiagnostic r)).map
        (Attribution.mk r)
      ++ recordAttributions records detection paths.2 rest

/-- The diagnostics of a run, each with its record. -/
def attributions (detection : CycleDetection) (records : List RegistrationRecord) :
    List Attribution :=
  (repeating [] records).map repetition ++ recordAttributions records detection [] records

section Attributions

variable {records : List RegistrationRecord} {detection : CycleDetection}

theorem map_diagnostic_repeating (seen : List String) (rest : List RegistrationRecord) :
    ((repeating seen rest).map repetition).map Attribution.diagnostic = repetitions seen rest := by
  induction rest generalizing seen with
  | nil => rfl
  | cons r rest ih =>
    unfold repeating repetitions
    split
    · rw [List.map_cons, List.map_cons, ih]
      rfl
    · exact ih (r.key :: seen)

theorem map_diagnostic_recordAttributions (reported : List (List String))
    (rest : List RegistrationRecord) :
    (recordAttributions records detection reported rest).map Attribution.diagnostic =
      recordDiagnostics records detection reported rest := by
  induction rest generalizing reported with
  | nil => rfl
  | cons r rest ih =>
    rw [recordAttributions, recordDiagnostics, List.map_append, List.map_map, ih]
    exact congrArg (· ++ _) (List.map_id _)

theorem map_diagnostic_attributions (detection : CycleDetection)
    (records : List RegistrationRecord) :
    (attributions detection records).map Attribution.diagnostic =
      (validate detection records).diagnostics := by
  unfold attributions
  rw [List.map_append, map_diagnostic_repeating, map_diagnostic_recordAttributions]
  rfl

theorem filter_reporter_self (r : RegistrationRecord) (own : List Diagnostic) :
    (own.map (Attribution.mk r)).filter (·.reporter ≠ r) = [] := by
  simp [List.filter_map, Function.comp_def]

theorem filter_reporter_of_ne {r s : RegistrationRecord} (h : s ≠ r) (own : List Diagnostic) :
    (own.map (Attribution.mk s)).filter (·.reporter ≠ r) = own.map (Attribution.mk s) := by
  simp [List.filter_map, Function.comp_def, h]

end Attributions

/-! ## Cycles that pass an interface -/

section Cycles

variable {records : List RegistrationRecord} {detection : CycleDetection}

theorem ReturnCycle.registered {key name : String} {rest : List String}
    (h : ReturnCycle records key rest) (hname : name ∈ rest) : Registered records name := by
  obtain ⟨before, after, rfl⟩ := List.append_of_mem hname
  have hnext : ∃ next, LeadsTo records .pairwise name next := by
    have hchain := h.chain
    rw [List.append_assoc] at hchain
    cases after with
    | nil => exact ⟨key, (List.isChain_append_cons_cons.mp hchain).2.1⟩
    | cons next after => exact ⟨next, (List.isChain_append_cons_cons.mp hchain).2.1⟩
  obtain ⟨next, hleads⟩ := hnext
  exact hleads.registered

theorem mem_identity_of_mem_returnPaths {r : RegistrationRecord} {p : ReturnPath}
    (h : p ∈ returnPaths records detection r) :
    r.key ∈ cycleIdentity p.cycle ∧
      ∀ name ∈ cycleIdentity p.cycle, name = r.key ∨ Registered records name := by
  obtain ⟨d, _, hpath⟩ := List.mem_filterMap.mp h
  obtain ⟨_, _, _, hcycle⟩ := returnPath?_eq_some_iff.mp hpath
  obtain ⟨rest, hrest, hreturn⟩ := exists_returnCycle hcycle
  have hmem : ∀ name, name ∈ cycleIdentity p.cycle ↔ name ∈ r.key :: rest := by
    intro name
    rw [(cycleIdentity_isRotated p.cycle).mem_iff, hrest, List.dropLast_concat]
  refine ⟨(hmem _).mpr List.mem_cons_self, fun name hname => ?_⟩
  rcases List.mem_cons.mp ((hmem name).mp hname) with hkey | hbetween
  · exact Or.inl hkey
  · exact Or.inr (hreturn.registered hbetween)

/-- The same cycles are reported, apart from those that pass the name. -/
def AgreeApart (name : String) (reported other : List (List String)) : Prop :=
  ∀ identity, name ∉ identity → (identity ∈ reported ↔ identity ∈ other)

theorem AgreeApart.cons {name : String} {reported other : List (List String)}
    (h : AgreeApart name reported other) (identity : List String) :
    AgreeApart name (identity :: reported) (identity :: other) := by
  intro cycle hcycle
  rw [List.mem_cons, List.mem_cons, h cycle hcycle]

theorem AgreeApart.cons_left {name : String} {reported other : List (List String)}
    {identity : List String} (h : AgreeApart name reported other) (hmem : name ∈ identity) :
    AgreeApart name (identity :: reported) other := by
  intro cycle hcycle
  rw [List.mem_cons, ← h cycle hcycle]
  exact or_iff_right fun heq => hcycle (heq ▸ hmem)

theorem AgreeApart.freshPaths_eq {name : String} {reported other : List (List String)}
    {paths : List ReturnPath} (h : AgreeApart name reported other)
    (hpaths : ∀ p ∈ paths, name ∉ cycleIdentity p.cycle) :
    (freshPaths reported paths).1 = (freshPaths other paths).1 ∧
      AgreeApart name (freshPaths reported paths).2 (freshPaths other paths).2 := by
  induction paths generalizing reported other with
  | nil => exact ⟨rfl, h⟩
  | cons p rest ih =>
    obtain ⟨hp, hrest⟩ := List.forall_mem_cons.mp hpaths
    unfold freshPaths
    by_cases hknown : cycleIdentity p.cycle ∈ reported
    · rw [if_pos hknown, if_pos ((h _ hp).mp hknown)]
      exact ih h hrest
    · rw [if_neg hknown, if_neg fun hother => hknown ((h _ hp).mpr hother)]
      obtain ⟨hfresh, hafter⟩ := ih (h.cons (cycleIdentity p.cycle)) hrest
      exact ⟨congrArg (p :: ·) hfresh, hafter⟩

theorem AgreeApart.freshPaths_left {name : String} {reported other : List (List String)}
    {paths : List ReturnPath} (h : AgreeApart name reported other)
    (hpaths : ∀ p ∈ paths, name ∈ cycleIdentity p.cycle) :
    AgreeApart name (freshPaths reported paths).2 other := by
  induction paths generalizing reported with
  | nil => exact h
  | cons p rest ih =>
    obtain ⟨hp, hrest⟩ := List.forall_mem_cons.mp hpaths
    unfold freshPaths
    split
    · exact ih h hrest
    · exact ih (h.cons_left hp) hrest

end Cycles

/-! ## With and without the record -/

/-- No other record registers the interface of the record or asks for it, itself or lazily. -/
structure Unrelated (r : RegistrationRecord) (others : List RegistrationRecord) : Prop where
  key_ne : ∀ s ∈ others, s.key ≠ r.key
  not_needs : ∀ s ∈ others, ¬ s.Needs r.key
  not_defers : ∀ s ∈ others, ¬ s.Defers r.key

namespace Unrelated

variable {records : List RegistrationRecord} {r : RegistrationRecord}
  {detection : CycleDetection}

theorem needs_ne {others : List RegistrationRecord} (h : Unrelated r others)
    {s : RegistrationRecord} (hs : s ∈ others) (name : String) (hneeds : s.Needs name) :
    name ≠ r.key := fun heq => h.not_needs s hs (heq ▸ hneeds)

theorem defers_ne {others : List RegistrationRecord} (h : Unrelated r others)
    {s : RegistrationRecord} (hs : s ∈ others) (name : String) (hdefers : s.Defers name) :
    name ≠ r.key := fun heq => h.not_defers s hs (heq ▸ hdefers)

variable (h : Unrelated r (records.filter (· ≠ r)))
include h

theorem agreeWithin : AgreeWithin (· ≠ r.key) records (records.filter (· ≠ r)) where
  lookup_eq name hname := by
    unfold lookup
    rw [List.find?_filter]
    apply List.find?_congr
    intro s _
    rw [Bool.eq_iff_iff]
    by_cases hs : s = r
    · simp [hs, Ne.symm hname]
    · simp [hs]
  closed name hname s hs next hneeds := by
    have hfirst := (lookup_eq_some_iff records name s).mp hs
    have hne : s ≠ r := fun heq => hname (heq ▸ hfirst.key_eq.symm)
    exact h.needs_ne (List.mem_filter.mpr ⟨hfirst.mem, by simpa using hne⟩) next hneeds

theorem returnPaths_eq {s : RegistrationRecord} (hs : s ∈ records.filter (· ≠ r)) :
    returnPaths records detection s = returnPaths (records.filter (· ≠ r)) detection s :=
  h.agreeWithin.returnPaths_eq (h.needs_ne hs)

theorem lazyMismatches_eq {s : RegistrationRecord} (hs : s ∈ records.filter (· ≠ r)) :
    lazyMismatches records s = lazyMismatches (records.filter (· ≠ r)) s :=
  h.agreeWithin.lazyMismatches_eq (h.defers_ne hs)

theorem key_notMem_identity {s : RegistrationRecord} (hs : s ∈ records.filter (· ≠ r)) :
    ∀ p ∈ returnPaths (records.filter (· ≠ r)) detection s, r.key ∉ cycleIdentity p.cycle := by
  intro p hp hmem
  rcases (mem_identity_of_mem_returnPaths hp).2 r.key hmem with hkey | ⟨other, hother, hkey⟩
  · exact h.key_ne s hs hkey.symm
  · exact h.key_ne other hother hkey

/-- One record after the other, the reports for the others are those of the run without it. -/
theorem filter_recordAttributions {reported other : List (List String)}
    {rest : List RegistrationRecord} (hreported : AgreeApart r.key reported other)
    (hrest : rest ⊆ records) :
    (recordAttributions records detection reported rest).filter (·.reporter ≠ r) =
      recordAttributions (records.filter (· ≠ r)) detection other (rest.filter (· ≠ r)) := by
  induction rest generalizing reported other with
  | nil => rfl
  | cons s rest ih =>
    obtain ⟨hs, hrest⟩ := List.cons_subset.mp hrest
    rw [recordAttributions, List.filter_append]
    by_cases hr : s = r
    -- the cycles of the record itself pass its interface, so they change nothing for the others
    · subst hr
      have hafter := hreported.freshPaths_left
        fun p (hp : p ∈ returnPaths records detection s) => (mem_identity_of_mem_returnPaths hp).1
      rw [filter_reporter_self, List.nil_append, ih hafter hrest,
        List.filter_cons_of_neg (by simp)]
    · have hother : s ∈ records.filter (· ≠ r) := List.mem_filter.mpr ⟨hs, by simpa using hr⟩
      obtain ⟨hfresh, hafter⟩ :=
        hreported.freshPaths_eq (@key_notMem_identity _ _ detection h _ hother)
      rw [filter_reporter_of_ne hr, List.filter_cons_of_pos (by simpa using hr),
        recordAttributions, h.returnPaths_eq hother, h.lazyMismatches_eq hother, hfresh,
        ih hafter hrest]

omit h in
theorem filter_repeating {seen other : List String} {rest : List RegistrationRecord}
    (hkeys : ∀ s ∈ rest, s ≠ r → s.key ≠ r.key)
    (hseen : ∀ key, key ≠ r.key → (key ∈ seen ↔ key ∈ other)) :
    (repeating seen rest).filter (· ≠ r) = repeating other (rest.filter (· ≠ r)) := by
  induction rest generalizing seen other with
  | nil => rfl
  | cons s rest ih =>
    obtain ⟨hs, hrest⟩ := List.forall_mem_cons.mp hkeys
    rw [repeating]
    by_cases hr : s = r
    · subst hr
      have hafter : ∀ key, key ≠ s.key → (key ∈ s.key :: seen ↔ key ∈ other) := by
        intro key hkey
        rw [List.mem_cons, ← hseen key hkey]
        exact or_iff_right hkey
      rw [List.filter_cons_of_neg (by simp)]
      split
      · rw [List.filter_cons_of_neg (by simp)]
        exact ih hrest hseen
      · exact ih hrest hafter
    · have hafter : ∀ key, key ≠ r.key → (key ∈ s.key :: seen ↔ key ∈ s.key :: other) := by
        intro key hkey
        rw [List.mem_cons, List.mem_cons, hseen key hkey]
      rw [List.filter_cons_of_pos (by simpa using hr), repeating]
      by_cases hknown : s.key ∈ seen
      · rw [if_pos hknown, if_pos ((hseen _ (hs hr)).mp hknown),
          List.filter_cons_of_pos (by simpa using hr), ih hrest hseen]
      · rw [if_neg hknown, if_neg fun hother => hknown ((hseen _ (hs hr)).mpr hother),
          ih hrest hafter]

theorem filter_attributions :
    (attributions detection records).filter (·.reporter ≠ r) =
      attributions detection (records.filter (· ≠ r)) := by
  have hkeys : ∀ s ∈ records, s ≠ r → s.key ≠ r.key := fun s hs hr =>
    h.key_ne s (List.mem_filter.mpr ⟨hs, by simpa using hr⟩)
  unfold attributions
  rw [List.filter_append, List.filter_map,
    h.filter_recordAttributions (fun _ _ => Iff.rfl) (List.Subset.refl records)]
  exact congrArg (List.map repetition · ++ _) (filter_repeating hkeys fun _ _ => Iff.rfl)

theorem filter_validate :
    (validate detection records).records.filter (· ≠ r) =
      (validate detection (records.filter (· ≠ r))).records := by
  change (records.filter _).filter _ = (records.filter (· ≠ r)).filter _
  rw [List.filter_comm]
  apply List.filter_congr
  intro s hs
  exact h.agreeWithin.isSound_eq (h.needs_ne hs) (h.defers_ne hs)

end Unrelated

/-- Wherever an unrelated record is inserted, the other records are kept as without it, and what is
reported for them is, in order, the diagnostics without it. -/
theorem validate_unrelated {before after : List RegistrationRecord} {r : RegistrationRecord}
    (detection : CycleDetection) (h : Unrelated r (before ++ after)) :
    (validate detection (before ++ r :: after)).records.filter (· ≠ r) =
      (validate detection (before ++ after)).records ∧
    ((attributions detection (before ++ r :: after)).filter (·.reporter ≠ r)).map
        Attribution.diagnostic = (validate detection (before ++ after)).diagnostics ∧
    (attributions detection (before ++ r :: after)).map Attribution.diagnostic =
      (validate detection (before ++ r :: after)).diagnostics := by
  have hothers : (before ++ r :: after).filter (· ≠ r) = before ++ after := by
    have hself : ∀ s ∈ before ++ after, decide (s ≠ r) = true := by
      intro s hs
      rw [decide_eq_true_iff]
      rintro rfl
      exact h.key_ne s hs rfl
    rw [List.filter_append, List.filter_cons_of_neg (by simp), ← List.filter_append]
    exact List.filter_eq_self.mpr hself
  rw [← hothers] at h
  refine ⟨?_, ?_, map_diagnostic_attributions detection _⟩
  · rw [h.filter_validate, hothers]
  · rw [h.filter_attributions, hothers, map_diagnostic_attributions]

/-- A record that needs another interface and its own, and defers a third. -/
def needsItself : RegistrationRecord :=
  sampleRecord "IX" "X" .transient
    [("a", .plain ⟨0, "IA"⟩), ("me", .plain ⟨0, "IX"⟩), ("b", .deferred ⟨0, "IB"⟩)]

/-- The record is reported for a cycle and for a lazy parameter, among other reports. -/
theorem validate_unrelated_needsItself :
    ∃ before after, before ++ after = laterRegistration ∧ Unrelated needsItself (before ++ after) ∧
      (validate .full (before ++ needsItself :: after)).records.filter (· ≠ needsItself) =
        (validate .full (before ++ after)).records ∧
      ((attributions .full (before ++ needsItself :: after)).filter
          (·.reporter ≠ needsItself)).map Attribution.diagnostic =
        (validate .full (before ++ after)).diagnostics ∧
      ((attributions .full (before ++ needsItself :: after)).filter
          (·.reporter = needsItself)).map (·.diagnostic.kind) =
        [.circularDependency, .lazyParameterNotRegisteredLazy] := by
  have hunrelated :
      Unrelated needsItself (laterRegistration.take 2 ++ laterRegistration.drop 2) := by
    refine ⟨by decide, ?_, ?_⟩
    · simp only [← mem_plainNames_iff]
      decide
    · unfold RegistrationRecord.Defers
      simp only [← DependencyKind.deferredName?_eq_some_iff]
      decide
  obtain ⟨hkept, hreports, _⟩ := validate_unrelated .full hunrelated
  exact ⟨_, _, List.take_append_drop 2 laterRegistration, hunrelated, hkept, hreports, by decide⟩

end Wiring.Graph
