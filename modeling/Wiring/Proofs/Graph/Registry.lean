import Wiring.Graph.Registry
import Wiring.Proofs.Graph.Search

/-! The graph of interfaces as a relation. It is read off the registrations themselves, by their
order and their parameters; the lookup and the lists of successors compute it. -/
namespace Wiring

namespace RegistrationRecord

/-- A parameter asks for the type of this name itself. -/
def Needs (r : RegistrationRecord) (name : String) : Prop :=
  ∃ d ∈ r.constructorDependencies, ∃ type : TypeRef, d.kind = .plain type ∧ type.name = name

/-- A parameter asks for a lazy wrapper over the type of this name. -/
def Defers (r : RegistrationRecord) (name : String) : Prop :=
  ∃ d ∈ r.constructorDependencies, ∃ type : TypeRef, d.kind = .deferred type ∧ type.name = name

end RegistrationRecord

namespace DependencyKind

theorem plainName?_eq_some_iff (kind : DependencyKind) (name : String) :
    kind.plainName? = some name ↔ ∃ type : TypeRef, kind = .plain type ∧ type.name = name := by
  cases kind <;> simp [plainName?]

theorem deferredName?_eq_some_iff (kind : DependencyKind) (name : String) :
    kind.deferredName? = some name ↔
      ∃ type : TypeRef, kind = .deferred type ∧ type.name = name := by
  cases kind <;> simp [deferredName?]

end DependencyKind

namespace Graph

/-- The first registration of an interface: no earlier record has the interface. -/
def IsFirst (records : List RegistrationRecord) (name : String) (r : RegistrationRecord) : Prop :=
  ∃ before after, records = before ++ r :: after ∧ r.key = name ∧ ∀ s ∈ before, s.key ≠ name

def Registered (records : List RegistrationRecord) (name : String) : Prop :=
  ∃ r ∈ records, r.key = name

/-- The first registration of the source needs the target, and the target is registered. -/
def Edge (records : List RegistrationRecord) (source target : String) : Prop :=
  Registered records target ∧ ∃ r, IsFirst records source r ∧ r.Needs target

theorem lookup_eq_some_iff (records : List RegistrationRecord) (name : String)
    (r : RegistrationRecord) : lookup records name = some r ↔ IsFirst records name r := by
  unfold lookup IsFirst
  rw [List.find?_eq_some_iff_append]
  constructor
  · rintro ⟨hkey, before, after, rfl, hbefore⟩
    exact ⟨before, after, rfl, by simpa using hkey, by simpa using hbefore⟩
  · rintro ⟨before, after, rfl, hkey, hbefore⟩
    exact ⟨by simpa using hkey, before, after, rfl, by simpa using hbefore⟩

theorem IsFirst.mem {records : List RegistrationRecord} {name : String} {r : RegistrationRecord}
    (h : IsFirst records name r) : r ∈ records := by
  obtain ⟨before, after, rfl, _, _⟩ := h
  simp

theorem IsFirst.key_eq {records : List RegistrationRecord} {name : String}
    {r : RegistrationRecord} (h : IsFirst records name r) : r.key = name := by
  obtain ⟨_, _, _, hkey, _⟩ := h
  exact hkey

theorem IsFirst.unique {records : List RegistrationRecord} {name : String}
    {r s : RegistrationRecord} (hr : IsFirst records name r) (hs : IsFirst records name s) :
    r = s := by
  rw [← lookup_eq_some_iff] at hr hs
  exact Option.some.inj (hr.symm.trans hs)

theorem IsFirst.append {before : List RegistrationRecord} {name : String}
    {r : RegistrationRecord} (h : IsFirst before name r) (after : List RegistrationRecord) :
    IsFirst (before ++ after) name r := by
  obtain ⟨first, second, rfl, hkey, hfirst⟩ := h
  exact ⟨first, second ++ after, by simp, hkey, hfirst⟩

theorem exists_isFirst_iff (records : List RegistrationRecord) (name : String) :
    (∃ r, IsFirst records name r) ↔ Registered records name := by
  constructor
  · rintro ⟨r, hr⟩
    exact ⟨r, hr.mem, hr.key_eq⟩
  · rintro ⟨r, hmem, hkey⟩
    have hsome : (lookup records name).isSome := by
      unfold lookup
      rw [List.find?_isSome]
      exact ⟨r, hmem, by simpa using hkey⟩
    obtain ⟨first, hfirst⟩ := Option.isSome_iff_exists.mp hsome
    exact ⟨first, (lookup_eq_some_iff records name first).mp hfirst⟩

theorem isRegistered_iff (records : List RegistrationRecord) (name : String) :
    isRegistered records name = true ↔ Registered records name := by
  rw [← exists_isFirst_iff]
  simp only [isRegistered, Option.isSome_iff_exists, lookup_eq_some_iff]

theorem mem_plainNames_iff (r : RegistrationRecord) (name : String) :
    name ∈ plainNames r ↔ r.Needs name := by
  unfold plainNames RegistrationRecord.Needs
  simp only [List.mem_filterMap, DependencyKind.plainName?_eq_some_iff]

theorem mem_successors_iff (records : List RegistrationRecord) (source target : String) :
    target ∈ successors records source ↔ Edge records source target := by
  unfold successors Edge
  cases hl : lookup records source with
  | none =>
    have hnone : ∀ r, ¬ IsFirst records source r := by
      intro r hr
      rw [← lookup_eq_some_iff, hl] at hr
      contradiction
    simp [hnone]
  | some first =>
    have hfirst := (lookup_eq_some_iff records source first).mp hl
    simp only [List.mem_filter, mem_plainNames_iff, isRegistered_iff]
    constructor
    · rintro ⟨hneeds, hregistered⟩
      exact ⟨hregistered, first, hfirst, hneeds⟩
    · rintro ⟨hregistered, r, hr, hneeds⟩
      rw [hr.unique hfirst] at hneeds
      exact ⟨hneeds, hregistered⟩

theorem successors_subset (records : List RegistrationRecord) (name : String) :
    successors records name ⊆ records.map RegistrationRecord.key := by
  intro target hmem
  rw [mem_successors_iff] at hmem
  obtain ⟨⟨r, hr, hkey⟩, _⟩ := hmem
  exact List.mem_map.mpr ⟨r, hr, hkey⟩

/-- The bound of the search leaves room for every registered interface. -/
theorem unvisited_keys_lt (records : List RegistrationRecord) (visited : List String) :
    unvisited (records.map RegistrationRecord.key) visited < records.length + 1 := by
  have hle := unvisited_le_length (records.map RegistrationRecord.key) visited
  rw [List.length_map] at hle
  omega

/-- What a detection takes for a way from one interface to another. -/
def LeadsTo (records : List RegistrationRecord) : CycleDetection → String → String → Prop
  | .pairwise => Edge records
  | .full => Relation.TransGen (Edge records)

theorem LeadsTo.registered {records : List RegistrationRecord} {detection : CycleDetection}
    {source target : String} (h : LeadsTo records detection source target) :
    Registered records source := by
  have hedge : ∃ next, Edge records source next := by
    cases detection with
    | pairwise => exact ⟨target, h⟩
    | full =>
      obtain ⟨next, hnext, _⟩ := Relation.TransGen.head'_iff.mp h
      exact ⟨next, hnext⟩
  obtain ⟨_, _, r, hr, _⟩ := hedge
  exact ⟨r, hr.mem, hr.key_eq⟩

/-- A way is found exactly where there is one for the detection. -/
theorem isSome_way?_iff (records : List RegistrationRecord) (detection : CycleDetection)
    (source target : String) :
    (way? records detection source target).isSome = true ↔
      LeadsTo records detection source target := by
  cases detection with
  | pairwise =>
    change (if target ∈ successors records source then some [source, target] else none).isSome =
      true ↔ Edge records source target
    rw [← mem_successors_iff]
    by_cases hmem : target ∈ successors records source <;> simp [hmem]
  | full =>
    change (search (successors records) target (records.length + 1) source [source]).1.isSome =
      true ↔ Relation.TransGen (Edge records) source target
    rw [isSome_search_iff (successors_subset records) (unvisited_keys_lt records [source])]
    simp only [mem_successors_iff]

end Graph
end Wiring
