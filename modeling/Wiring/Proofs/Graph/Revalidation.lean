import Wiring.Proofs.Graph.Diagnostics
import Wiring.Proofs.Graph.Soundness

/-! Validation of the records that validation kept. Lookups go to the first registration of the
whole input, so a later registration takes over an interface when the first one is dropped and the
later one is kept. Only through such interfaces can the kept records fail a second validation. -/
namespace Wiring.Graph

/-- The first registration of the interface was dropped, and a later one was kept. -/
def Replaced (records kept : List RegistrationRecord) (name : String) : Prop :=
  Registered kept name ∧ ∃ first, IsFirst records name first ∧ first ∉ kept

/-- What a detection takes for a way that goes out from an interface between. -/
def LeadsThrough (records : List RegistrationRecord) (between source target : String) :
    CycleDetection → Prop
  | .pairwise => between = source ∧ Edge records source target
  | .full => Relation.ReflTransGen (Edge records) source between ∧
      Relation.TransGen (Edge records) between target

/-- A kept record that no replaced interface makes fail. -/
structure Undisturbed (records kept : List RegistrationRecord) (detection : CycleDetection)
    (r : RegistrationRecord) : Prop where
  /-- No way back through the kept records goes out from a replaced interface. -/
  acyclic : ∀ name between, r.Needs name → Replaced records kept between →
    ¬ LeadsThrough kept between name r.key detection
  /-- What the record defers is, where it was replaced, replaced by a lazy singleton. -/
  lazyTargets : ∀ name, r.Defers name → Replaced records kept name →
    ∀ target, IsFirst kept name target → target.isLazySingleton = true

section Kept

variable {records : List RegistrationRecord} {keeps : RegistrationRecord → Bool}

theorem IsFirst.filter {name : String} {r : RegistrationRecord} (h : IsFirst records name r)
    (hkeeps : keeps r = true) : IsFirst (records.filter keeps) name r := by
  obtain ⟨before, after, rfl, hkey, hbefore⟩ := h
  refine ⟨before.filter keeps, after.filter keeps, ?_, hkey, ?_⟩
  · rw [List.filter_append, List.filter_cons_of_pos hkeeps]
  · exact fun s hs => hbefore s (List.mem_of_mem_filter hs)

theorem Registered.of_filter {name : String} (h : Registered (records.filter keeps) name) :
    Registered records name := by
  obtain ⟨r, hmem, hkey⟩ := h
  exact ⟨r, List.mem_of_mem_filter hmem, hkey⟩

/-- The first kept registration of an interface that was not replaced is the first of all. -/
theorem IsFirst.of_filter {name : String} {r : RegistrationRecord}
    (h : IsFirst (records.filter keeps) name r)
    (hnot : ¬ Replaced records (records.filter keeps) name) : IsFirst records name r := by
  have hregistered : Registered (records.filter keeps) name := ⟨r, h.mem, h.key_eq⟩
  obtain ⟨first, hfirst⟩ := (exists_isFirst_iff records name).mpr hregistered.of_filter
  have hmem : first ∈ records.filter keeps := by
    by_contra hdropped
    exact hnot ⟨hregistered, first, hfirst, hdropped⟩
  rw [h.unique (hfirst.filter (List.mem_filter.mp hmem).2)]
  exact hfirst

theorem Edge.of_filter {source target : String} (h : Edge (records.filter keeps) source target)
    (hnot : ¬ Replaced records (records.filter keeps) source) : Edge records source target := by
  obtain ⟨hregistered, r, hr, hneeds⟩ := h
  exact ⟨hregistered.of_filter, r, hr.of_filter hnot, hneeds⟩

/-- A way through kept records goes out from a replaced interface, or it was there before. -/
theorem leadsTo_or_leadsThrough {detection : CycleDetection} {source target : String}
    (h : LeadsTo (records.filter keeps) detection source target) :
    LeadsTo records detection source target ∨
      ∃ between, Replaced records (records.filter keeps) between ∧
        LeadsThrough (records.filter keeps) between source target detection := by
  cases detection with
  | pairwise =>
    by_cases hreplaced : Replaced records (records.filter keeps) source
    · exact Or.inr ⟨source, hreplaced, rfl, h⟩
    · exact Or.inl (Edge.of_filter h hreplaced)
  | full =>
    -- from the target backwards: the replaced interface found last is the first one on the way
    induction h using Relation.TransGen.head_induction_on with
    | single hedge =>
      rename_i source
      by_cases hreplaced : Replaced records (records.filter keeps) source
      · exact Or.inr ⟨source, hreplaced, .refl, .single hedge⟩
      · exact Or.inl (.single (hedge.of_filter hreplaced))
    | head hedge hway ih =>
      rename_i source next
      by_cases hreplaced : Replaced records (records.filter keeps) source
      · exact Or.inr ⟨source, hreplaced, .refl, .head hedge hway⟩
      · rcases ih with hbefore | ⟨between, hbetween, hto, hfrom⟩
        · exact Or.inl (.head (hedge.of_filter hreplaced) hbefore)
        · exact Or.inr ⟨between, hbetween, .head hedge hto, hfrom⟩

theorem LeadsThrough.leadsTo {detection : CycleDetection} {between source target : String}
    (h : LeadsThrough records between source target detection) :
    LeadsTo records detection source target := by
  cases detection with
  | pairwise => exact h.2
  | full => exact Relation.TransGen.trans_right h.1 h.2

/-- A record that was sound among all is sound among the kept exactly when it is undisturbed. -/
theorem sound_filter_iff {detection : CycleDetection} {r : RegistrationRecord}
    (h : Sound records detection r) :
    Sound (records.filter keeps) detection r ↔
      Undisturbed records (records.filter keeps) detection r := by
  constructor
  · intro hsound
    refine ⟨fun name between hneeds _ hway => ?_, fun name hdefers _ => ?_⟩
    · exact hsound.acyclic name hneeds hway.leadsTo
    · exact hsound.lazyTargets name hdefers
  · intro hundisturbed
    refine ⟨fun name hneeds hway => ?_, fun name hdefers target htarget => ?_⟩
    · rcases leadsTo_or_leadsThrough hway with hbefore | ⟨between, hreplaced, hthrough⟩
      · exact h.acyclic name hneeds hbefore
      · exact hundisturbed.acyclic name between hneeds hreplaced hthrough
    · by_cases hreplaced : Replaced records (records.filter keeps) name
      · exact hundisturbed.lazyTargets name hdefers hreplaced target htarget
      · exact h.lazyTargets name hdefers target (htarget.of_filter hreplaced)

end Kept

/-- Validation keeps every record and reports neither a cycle nor a lazy parameter. -/
structure Stable (detection : CycleDetection) (records : List RegistrationRecord) : Prop where
  keeps_all : (validate detection records).records = records
  quiet : ∀ d ∈ (validate detection records).diagnostics,
    d.kind ≠ .circularDependency ∧ d.kind ≠ .lazyParameterNotRegisteredLazy

theorem stable_iff (detection : CycleDetection) (records : List RegistrationRecord) :
    Stable detection records ↔ ∀ r ∈ records, Sound records detection r := by
  simp only [← isSound_iff]
  constructor
  · intro h
    exact List.filter_eq_self.mp h.keeps_all
  · intro h
    refine ⟨List.filter_eq_self.mpr h, fun d hd => ?_⟩
    rcases List.mem_append.mp hd with hrepeated | hrecord
    · rw [kind_of_mem_repetitions hrepeated]
      simp
    · rw [(recordDiagnostics_eq_nil_iff records detection records).mpr h] at hrecord
      contradiction

theorem not_replaced_of_forall_first_mem {records kept : List RegistrationRecord}
    (h : ∀ r ∈ kept, ∀ first, IsFirst records r.key first → first ∈ kept) (name : String) :
    ¬ Replaced records kept name := by
  rintro ⟨⟨r, hmem, rfl⟩, first, hfirst, hdropped⟩
  exact hdropped (h r hmem first hfirst)

instance (detection : CycleDetection) (records : List RegistrationRecord) :
    Decidable (Stable detection records) :=
  decidable_of_iff _ (stable_iff detection records).symm

/-- The kept records pass a second validation exactly when each of them is undisturbed by replaced
interfaces; so they do whenever the first registration of every kept interface is kept. -/
theorem stable_kept_iff (detection : CycleDetection) (records : List RegistrationRecord) :
    (Stable detection (validate detection records).records ↔
      ∀ r ∈ (validate detection records).records,
        Undisturbed records (validate detection records).records detection r) ∧
    ((∀ r ∈ (validate detection records).records, ∀ first, IsFirst records r.key first →
        first ∈ (validate detection records).records) →
      Stable detection (validate detection records).records) := by
  have hiff : Stable detection (validate detection records).records ↔
      ∀ r ∈ (validate detection records).records,
        Undisturbed records (validate detection records).records detection r := by
    rw [stable_iff]
    refine forall₂_congr fun r hr => ?_
    exact sound_filter_iff ((mem_validate_iff records detection r).mp hr).2
  refine ⟨hiff, fun hfirst => hiff.mpr fun r _ => ?_⟩
  have hnot := not_replaced_of_forall_first_mem hfirst
  exact ⟨fun _ between _ hreplaced => absurd hreplaced (hnot between),
    fun name _ hreplaced => absurd hreplaced (hnot name)⟩

/-- A record at a fixed place, with its parameters by name. -/
def sampleRecord (interface concrete : String) (kind : RegistrationKind)
    (parameters : List (String × DependencyKind)) : RegistrationRecord :=
  { interface := ⟨0, interface⟩
    concrete := ⟨0, concrete⟩
    constructorDependencies := parameters.map fun p => ⟨p.1, p.2, none⟩
    propertyDependencies := []
    contract := none
    kind
    location := ⟨"Program.cs", 10, 9⟩ }

/-- An interface registered twice, one that needs itself, and one that needs the first. -/
def repeatedInterface : List RegistrationRecord :=
  [sampleRecord "IA" "A1" .transient [], sampleRecord "IA" "A2" .transient [],
   sampleRecord "IC" "C" .transient [("self", .plain ⟨0, "IC"⟩)],
   sampleRecord "IB" "B" .transient [("a", .plain ⟨0, "IA"⟩)]]

theorem stable_kept_repeatedInterface :
    (∀ r ∈ (validate .full repeatedInterface).records, ∀ first,
      IsFirst repeatedInterface r.key first →
        first ∈ (validate .full repeatedInterface).records) ∧
    Stable .full (validate .full repeatedInterface).records := by
  have hfirst : ∀ r ∈ (validate .full repeatedInterface).records, ∀ first,
      IsFirst repeatedInterface r.key first →
        first ∈ (validate .full repeatedInterface).records := by
    simp only [← lookup_eq_some_iff]
    decide
  exact ⟨hfirst, (stable_kept_iff .full repeatedInterface).2 hfirst⟩

/-- A lazy singleton that needs itself, a transient registration of the same interface, and a
record that defers the interface. -/
def replacedLazySingleton : List RegistrationRecord :=
  [sampleRecord "IB" "B1" (.lazySingleton none) [("self", .plain ⟨0, "IB"⟩)],
   sampleRecord "IB" "B2" .transient [],
   sampleRecord "IA" "A" .transient [("b", .deferred ⟨0, "IB"⟩)]]

/-- The transient registration takes the interface over, and a second validation drops the record
that defers it. -/
theorem not_stable_replacedLazySingleton :
    ¬ Stable .full (validate .full replacedLazySingleton).records ∧
      ¬ Stable .pairwise (validate .pairwise replacedLazySingleton).records := by
  decide

end Wiring.Graph
