import Mathlib.Data.Finset.Card
import Wiring.Graph.Validation

/-! What validation reports, counted and sorted by kind: warnings for repeated interfaces only,
errors for dropped records only, and some error whenever a record is dropped, although a cycle is
reported once for all records on it. -/
namespace Wiring.Graph

theorem kind_of_mem_repetitions {seen : List String} {records : List RegistrationRecord}
    {d : Diagnostic} (h : d ∈ repetitions seen records) :
    d.kind = .interfaceRegisteredMultipleTimes := by
  induction records generalizing seen with
  | nil => contradiction
  | cons r rest ih =>
    unfold repetitions at h
    split at h
    · rcases List.mem_cons.mp h with rfl | hrest
      · rfl
      · exact ih hrest
    · exact ih h

theorem kind_of_mem_map_diagnostic {r : RegistrationRecord} {paths : List ReturnPath}
    {d : Diagnostic} (h : d ∈ paths.map (ReturnPath.diagnostic r)) :
    d.kind = .circularDependency := by
  obtain ⟨p, _, rfl⟩ := List.mem_map.mp h
  rfl

theorem kind_of_mem_map_lazyDiagnostic {r : RegistrationRecord} {parameters : List Dependency}
    {d : Diagnostic} (h : d ∈ parameters.map (lazyDiagnostic r)) :
    d.kind = .lazyParameterNotRegisteredLazy := by
  obtain ⟨parameter, _, rfl⟩ := List.mem_map.mp h
  rfl

theorem kind_of_mem_recordDiagnostics {records rest : List RegistrationRecord}
    {detection : CycleDetection} {reported : List (List String)} {d : Diagnostic}
    (h : d ∈ recordDiagnostics records detection reported rest) :
    d.kind = .circularDependency ∨ d.kind = .lazyParameterNotRegisteredLazy := by
  induction rest generalizing reported with
  | nil => contradiction
  | cons r rest ih =>
    unfold recordDiagnostics at h
    cases hf : freshPaths reported (returnPaths records detection r) with
    | mk fresh after =>
      simp only [hf, List.mem_append] at h
      rcases h with (hcycle | hlazy) | hrest
      · exact Or.inl (kind_of_mem_map_diagnostic hcycle)
      · exact Or.inr (kind_of_mem_map_lazyDiagnostic hlazy)
      · exact ih hrest

/-- Nothing is reported about the records exactly when all of them are kept: the reported cycles
stay empty up to the first record with a way back, which is therefore reported. -/
theorem recordDiagnostics_eq_nil_iff (records : List RegistrationRecord)
    (detection : CycleDetection) (rest : List RegistrationRecord) :
    recordDiagnostics records detection [] rest = [] ↔
      ∀ r ∈ rest, isSound records detection r = true := by
  induction rest with
  | nil => simp [recordDiagnostics]
  | cons r rest ih =>
    unfold recordDiagnostics
    rw [List.forall_mem_cons, ← ih]
    unfold isSound
    -- no cycle is reported yet, so the first return path is a fresh one
    cases returnPaths records detection r with
    | nil => simp [freshPaths]
    | cons p more => simp [freshPaths]

/-! ## One kind of report -/

/-- The reports of one kind in a run. -/
def reportsOf (kind : ProblemKind) (v : Validated) : List Diagnostic :=
  v.diagnostics.filter fun d => d.kind = kind

theorem filter_kind_eq_self {reports : List Diagnostic} {kind : ProblemKind}
    (h : ∀ d ∈ reports, d.kind = kind) : reports.filter (fun d => d.kind = kind) = reports :=
  List.filter_eq_self.mpr fun d hd => decide_eq_true (h d hd)

theorem filter_kind_eq_nil {reports : List Diagnostic} {kind : ProblemKind}
    (h : ∀ d ∈ reports, d.kind ≠ kind) : reports.filter (fun d => d.kind = kind) = [] :=
  List.filter_eq_nil_iff.mpr fun d hd hkind => h d hd (of_decide_eq_true hkind)

theorem filter_kind_repetitions {kind : ProblemKind} (h : kind ≠ .interfaceRegisteredMultipleTimes)
    (seen : List String) (records : List RegistrationRecord) :
    (repetitions seen records).filter (fun d => d.kind = kind) = [] :=
  filter_kind_eq_nil fun _ hd heq => h (heq.symm.trans (kind_of_mem_repetitions hd))

theorem filter_lazy_recordDiagnostics (records : List RegistrationRecord)
    (detection : CycleDetection) (reported : List (List String)) (rest : List RegistrationRecord) :
    (recordDiagnostics records detection reported rest).filter
        (fun d => d.kind = .lazyParameterNotRegisteredLazy) =
      rest.flatMap fun r => (lazyMismatches records r).map (lazyDiagnostic r) := by
  induction rest generalizing reported with
  | nil => rfl
  | cons r rest ih =>
    unfold recordDiagnostics
    cases hf : freshPaths reported (returnPaths records detection r) with
    | mk fresh after =>
      have hcycles : (fresh.map (ReturnPath.diagnostic r)).filter
          (fun d => d.kind = .lazyParameterNotRegisteredLazy) = [] :=
        filter_kind_eq_nil fun d hd => by simp [kind_of_mem_map_diagnostic hd]
      rw [List.filter_append, List.filter_append, hcycles,
        filter_kind_eq_self fun _ => kind_of_mem_map_lazyDiagnostic, ih, List.nil_append,
        List.flatMap_cons]

/-- The lazy parameters reported do not depend on the detection. -/
theorem reportsOf_lazyParameter_validate (detection : CycleDetection)
    (records : List RegistrationRecord) :
    reportsOf .lazyParameterNotRegisteredLazy (validate detection records) =
      records.flatMap fun r => (lazyMismatches records r).map (lazyDiagnostic r) := by
  unfold reportsOf validate
  rw [List.filter_append, filter_kind_repetitions (by decide), List.nil_append,
    filter_lazy_recordDiagnostics]

theorem reportsOf_repeatedInterface_validate (detection : CycleDetection)
    (records : List RegistrationRecord) :
    reportsOf .interfaceRegisteredMultipleTimes (validate detection records) =
      repetitions [] records := by
  have hrecords : (recordDiagnostics records detection [] records).filter
      (fun d => d.kind = .interfaceRegisteredMultipleTimes) = [] := by
    apply filter_kind_eq_nil
    intro d hd
    rcases kind_of_mem_recordDiagnostics hd with hkind | hkind <;> simp [hkind]
  unfold reportsOf validate
  rw [List.filter_append, filter_kind_eq_self fun _ => kind_of_mem_repetitions, hrecords,
    List.append_nil]

/-! ## Warnings -/

/-- Every record but the first of its interface is warned about. -/
theorem length_repetitions_add_card (seen : List String) (records : List RegistrationRecord) :
    (repetitions seen records).length +
      ((records.map RegistrationRecord.key).toFinset \ seen.toFinset).card = records.length := by
  induction records generalizing seen with
  | nil => simp [repetitions]
  | cons r rest ih =>
    unfold repetitions
    rw [List.map_cons, List.toFinset_cons]
    split
    · rename_i hseen
      have hmem : r.key ∈ seen.toFinset := List.mem_toFinset.mpr hseen
      rw [Finset.insert_sdiff_of_mem _ hmem]
      have hrest := ih seen
      simp only [List.length_cons]
      omega
    · rename_i hseen
      have hmem : r.key ∉ seen.toFinset := fun h => hseen (List.mem_toFinset.mp h)
      have hrest := ih (r.key :: seen)
      rw [List.toFinset_cons, Finset.sdiff_insert] at hrest
      rw [Finset.insert_sdiff_of_notMem _ hmem,
        ← Finset.card_erase_add_one (Finset.mem_insert_self r.key _),
        Finset.erase_insert_eq_erase, List.length_cons]
      omega

end Wiring.Graph
