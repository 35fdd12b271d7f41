import Wiring.Graph.Validation
import Wiring.Proofs.Graph.Registry

/-! What validation asks of a record, said by relations between registrations alone, and the proof
that the records kept are exactly those of which it holds. -/
namespace Wiring.Graph

/-- A record that validation keeps. -/
structure Sound (records : List RegistrationRecord) (detection : CycleDetection)
    (r : RegistrationRecord) : Prop where
  /-- Nothing the record needs leads back to its own interface. -/
  acyclic : ∀ name, r.Needs name → ¬ LeadsTo records detection name r.key
  /-- What the record defers, if it is registered, is first registered as a lazy singleton. -/
  lazyTargets : ∀ name, r.Defers name → ∀ target, IsFirst records name target →
    target.isLazySingleton = true

theorem returnPaths_eq_nil_iff (records : List RegistrationRecord) (detection : CycleDetection)
    (r : RegistrationRecord) :
    returnPaths records detection r = [] ↔
      ∀ name, r.Needs name → ¬ LeadsTo records detection name r.key := by
  unfold returnPaths RegistrationRecord.Needs
  rw [List.filterMap_eq_nil_iff]
  have hpath : ∀ d : Dependency, returnPath? records detection r d = none ↔
      ∀ name, d.kind.plainName? = some name → ¬ LeadsTo records detection name r.key := by
    intro d
    simp only [returnPath?, Option.bind_eq_none_iff, Option.map_eq_none_iff, ← isSome_way?_iff,
      Option.not_isSome_iff_eq_none]
  simp only [hpath, DependencyKind.plainName?_eq_some_iff]
  constructor
  · rintro h name ⟨d, hd, hkind⟩
    exact h d hd name hkind
  · intro h d hd name hkind
    exact h name ⟨d, hd, hkind⟩

theorem isLazyMismatch_eq_false_iff (records : List RegistrationRecord) (d : Dependency) :
    isLazyMismatch records d = false ↔
      ∀ name, d.kind.deferredName? = some name → ∀ target, IsFirst records name target →
        target.isLazySingleton = true := by
  unfold isLazyMismatch
  simp only [← lookup_eq_some_iff]
  cases d.kind.deferredName? with
  | none => simp
  | some name =>
    cases hl : lookup records name <;> simp [hl]

theorem lazyMismatches_eq_nil_iff (records : List RegistrationRecord) (r : RegistrationRecord) :
    lazyMismatches records r = [] ↔
      ∀ name, r.Defers name → ∀ target, IsFirst records name target →
        target.isLazySingleton = true := by
  unfold lazyMismatches RegistrationRecord.Defers
  rw [List.filter_eq_nil_iff]
  simp only [Bool.not_eq_true, isLazyMismatch_eq_false_iff,
    DependencyKind.deferredName?_eq_some_iff]
  constructor
  · rintro h name ⟨d, hd, hkind⟩
    exact h d hd name hkind
  · intro h d hd name hkind
    exact h name ⟨d, hd, hkind⟩

theorem isSound_iff (records : List RegistrationRecord) (detection : CycleDetection)
    (r : RegistrationRecord) :
    isSound records detection r = true ↔ Sound records detection r := by
  unfold isSound
  rw [Bool.and_eq_true, List.isEmpty_iff, List.isEmpty_iff, returnPaths_eq_nil_iff,
    lazyMismatches_eq_nil_iff]
  exact ⟨fun h => ⟨h.1, h.2⟩, fun h => ⟨h.acyclic, h.lazyTargets⟩⟩

instance (records : List RegistrationRecord) (detection : CycleDetection) :
    DecidablePred (Sound records detection) :=
  fun r => decidable_of_iff _ (isSound_iff records detection r)

theorem mem_validate_iff (records : List RegistrationRecord) (detection : CycleDetection)
    (r : RegistrationRecord) :
    r ∈ (validate detection records).records ↔ r ∈ records ∧ Sound records detection r := by
  rw [← isSound_iff]
  exact List.mem_filter

/-- Full detection keeps, in their order, exactly the sound records: those from whose needs no chain
of first registrations leads back, and whose deferred parameters meet lazy singletons. The visited
set that the branches of a search share neither hides a way nor makes one up. -/
theorem validate_full_records (records : List RegistrationRecord) :
    (validate .full records).records =
      (records.filter fun r => decide (Sound records .full r)) ∧
    ∀ source target, (way? records .full source target).isSome = true ↔
      Relation.TransGen (Edge records) source target := by
  refine ⟨?_, isSome_way?_iff records .full⟩
  change records.filter (isSound records .full) = _
  apply List.filter_congr
  intro r _
  rw [Bool.eq_iff_iff, isSound_iff, decide_eq_true_iff]

end Wiring.Graph
