import Wiring.Proofs.Analysis.Properties

/-! Property discovery along inheritance. What is discovered of a type is what is marked on the type
itself, followed by what is discovered of its base; and one marked property that cannot be set,
anywhere on the chain, rejects the whole. -/
namespace Wiring.SymbolModel

/-- The property is marked for injection, but it cannot be set. -/
def isRefused (m : SymbolModel) (names : WellKnownNames) (p : PropertyCandidate) : Bool :=
  m.carries names.propertyMarker p.member && !m.port.isSettable p

/-- The marked properties declared on the type itself, as dependencies. -/
def ownDependencies (m : SymbolModel) (names : WellKnownNames) (t : TypeRef) : List Dependency :=
  ((m.properties t).filter fun p => m.carries names.propertyMarker p.member).map
    (m.port.injected (.resolve m names))

section Discovery

variable {m : SymbolModel} {d : ModelDocument} {calls : List InvocationDecl} {name base : String}
variable {names : WellKnownNames}

theorem Holds.find?_markedProperties (h : m.Holds d calls) (names : WellKnownNames) (t : TypeRef) :
    (m.port.markedProperties (.resolve m names) t).find? (fun p => !m.port.isSettable p) =
      (m.properties t).find? (m.isRefused names) := by
  unfold isRefused
  rw [h.markedProperties_eq, List.find?_filter]
  simp only [Bool.decide_and, Bool.decide_eq_true]

theorem Holds.isSettable_of_find? (h : m.Holds d calls) {t : TypeRef}
    (hfind : (m.properties t).find? (m.isRefused names) = none) :
    ∀ p ∈ m.port.markedProperties (.resolve m names) t, m.port.isSettable p = true := by
  rw [← h.find?_markedProperties] at hfind
  simpa using hfind

theorem Holds.map_markedProperties (h : m.Holds d calls) (names : WellKnownNames) (t : TypeRef) :
    (m.port.markedProperties (.resolve m names) t).map (m.port.injected (.resolve m names)) =
      m.ownDependencies names t := by
  rw [h.markedProperties_eq]
  rfl

theorem Represents.owner_of_mem_properties {types : List TypeDecl} (h : m.Represents types)
    (hname : name ∈ m.names) {p : PropertyCandidate} (hp : p ∈ m.properties (m.handleOf name)) :
    p.owner = m.handleOf name := by
  rw [h.properties_handleOf hname] at hp
  obtain ⟨_, _, rfl⟩ := List.mem_map.mp hp
  rfl

theorem Holds.discoverProperties_of_refused (h : m.Holds d calls) (hname : name ∈ m.names)
    {p : PropertyCandidate}
    (hfind : (m.properties (m.handleOf name)).find? (m.isRefused names) = some p)
    (site : Location) :
    m.port.discoverProperties (.resolve m names) (m.handleOf name) site =
      .error [⟨.propertyMustBeSettable (name ++ "." ++ p.name),
        (p.setterLocation.orElse fun _ => p.location).getD site⟩] := by
  have howner := h.represents.owner_of_mem_properties hname (List.mem_of_find?_eq_some hfind)
  have hqualified : p.qualifiedName = name ++ "." ++ p.name := by
    unfold PropertyCandidate.qualifiedName
    rw [howner]
    rfl
  -- what the bases contribute comes after the type's own properties, and is not looked at
  unfold SymbolPort.discoverProperties
  rw [port_basesAndSelf, basesAndSelf, List.flatMap_cons, ← hqualified]
  apply SymbolPort.propertyDependencies_eq_error
  rw [List.find?_append, h.find?_markedProperties, hfind, Option.some_or]

theorem Holds.discoverProperties_of_root (h : m.Holds d calls) (hname : name ∈ m.names)
    (hroot : (TypeDecl.find d.types name).base = none)
    (hfind : (m.properties (m.handleOf name)).find? (m.isRefused names) = none)
    (site : Location) :
    m.port.discoverProperties (.resolve m names) (m.handleOf name) site =
      .ok (m.ownDependencies names (m.handleOf name)) := by
  unfold SymbolPort.discoverProperties
  rw [port_basesAndSelf, h.represents.basesAndSelf_of_root h.acyclic hname hroot, List.flatMap_singleton,
    ← h.map_markedProperties]
  exact SymbolPort.propertyDependencies_eq_ok (h.isSettable_of_find? hfind)

theorem Holds.discoverProperties_of_base (h : m.Holds d calls) (hname : name ∈ m.names)
    (hbase : (TypeDecl.find d.types name).base = some base)
    (hfind : (m.properties (m.handleOf name)).find? (m.isRefused names) = none)
    (site : Location) :
    m.port.discoverProperties (.resolve m names) (m.handleOf name) site =
      (m.port.discoverProperties (.resolve m names) (m.handleOf base) site).map
        (m.ownDependencies names (m.handleOf name) ++ ·) := by
  unfold SymbolPort.discoverProperties
  rw [port_basesAndSelf, h.represents.basesAndSelf_of_base h.acyclic hname hbase, List.flatMap_cons,
    ← h.map_markedProperties]
  exact SymbolPort.propertyDependencies_append (h.isSettable_of_find? hfind)

theorem Holds.exists_discoverProperties_eq_ok_iff (h : m.Holds d calls) (names : WellKnownNames)
    (t : TypeRef) (site : Location) :
    (∃ dependencies, m.port.discoverProperties (.resolve m names) t site = .ok dependencies) ↔
      ∀ level ∈ m.basesAndSelf t, ∀ p ∈ m.properties level,
        m.carries names.propertyMarker p.member = true → m.port.isSettable p = true := by
  unfold SymbolPort.discoverProperties
  rw [SymbolPort.exists_propertyDependencies_eq_ok_iff]
  simp only [port_basesAndSelf, List.mem_flatMap, h.markedProperties_eq, List.mem_filter]
  constructor
  · exact fun hall level hlevel p hp hmarked => hall p ⟨level, hlevel, hp, hmarked⟩
  · rintro hall p ⟨level, hlevel, hp, hmarked⟩
    exact hall level hlevel p hp hmarked

theorem Holds.discoverProperties_eq (h : m.Holds d calls) {t : TypeRef} {site : Location}
    {dependencies : List Dependency}
    (hok : m.port.discoverProperties (.resolve m names) t site = .ok dependencies) :
    dependencies = (m.basesAndSelf t).flatMap (m.ownDependencies names) := by
  rw [SymbolPort.discoverProperties_eq_of_ok hok, port_basesAndSelf, List.map_flatMap]
  exact List.flatMap_congr fun level _ => h.map_markedProperties names level

end Discovery

/-- What is discovered of `t`, in terms of its own properties and of its base. -/
structure Composes (m : SymbolModel) (type : TypeDecl) (names : WellKnownNames) (t : TypeRef)
    (site : Location) : Prop where
  refused : ∀ p, (m.properties t).find? (m.isRefused names) = some p →
    m.port.discoverProperties (.resolve m names) t site =
      .error [⟨.propertyMustBeSettable (type.name ++ "." ++ p.name),
        (p.setterLocation.orElse fun _ => p.location).getD site⟩]
  root : (m.properties t).find? (m.isRefused names) = none → type.base = none →
    m.port.discoverProperties (.resolve m names) t site = .ok (m.ownDependencies names t)
  derived : (m.properties t).find? (m.isRefused names) = none → ∀ base, type.base = some base →
    ∃ b, m.typeRef? base = some b ∧
      m.port.discoverProperties (.resolve m names) t site =
        (m.port.discoverProperties (.resolve m names) b site).map (m.ownDependencies names t ++ ·)

/-- The handles of a type and of all its declared bases, in that order, each of which shows the
properties that are declared of its name. -/
structure Levels (m : SymbolModel) (types : List TypeDecl) (name : String)
    (levels : List TypeRef) : Prop where
  chain : TypeDecl.Chain types (some name) (levels.map TypeRef.name)
  known : ∀ level ∈ levels, m.Knows level
  declared : ∀ level ∈ levels, List.Forall₂ (fun declared p => ∃ first,
      (TypeDecl.find types level.name).property? declared.name = some first ∧
      m.Judged level declared first p)
    (TypeDecl.find types level.name).properties (m.properties level)

section Composition

variable {m : SymbolModel} {d : ModelDocument} {calls : List InvocationDecl} {type : TypeDecl}

theorem Holds.composes (h : m.Holds d calls) (htype : type ∈ d.types) (names : WellKnownNames)
    (site : Location) : m.Composes type names (m.handleOf type.name) site := by
  have hname : type.name ∈ m.names := h.represents.mem_names htype List.mem_cons_self
  have hdeclared : (TypeDecl.find d.types type.name).base = type.base :=
    congrArg TypeDecl.base (TypeDecl.find_of_mem h.represents.distinct htype)
  constructor
  case refused => exact fun p hfind => h.discoverProperties_of_refused hname hfind site
  case root =>
    exact fun hnone hroot => h.discoverProperties_of_root hname (hdeclared.trans hroot) hnone site
  case derived =>
    intro hnone base hbase
    rw [← hdeclared] at hbase
    exact ⟨m.handleOf base, h.represents.knows_handleOf (h.represents.base_mem_names hbase),
      h.discoverProperties_of_base hname hbase hnone site⟩

theorem Represents.levels {types : List TypeDecl} {name : String} (h : m.Represents types)
    (hacyclic : m.Acyclic) (hname : name ∈ m.names) :
    m.Levels types name (m.basesAndSelf (m.handleOf name)) := by
  have hknown : ∀ level ∈ m.basesAndSelf (m.handleOf name), m.Knows level :=
    (h.closed_knows hacyclic).basesAndSelf _ (h.knows_handleOf hname)
  refine ⟨h.chain_basesAndSelf hacyclic hname, hknown, fun level hlevel => ?_⟩
  obtain ⟨hlevelName, hhandle⟩ := h.knows_iff.mp (hknown level hlevel)
  have hshown := h.forall₂_properties hlevelName
  rwa [← hhandle] at hshown

end Composition

/-- The marked properties of a type come first, followed by what is discovered of its base; the
first of its own that cannot be set rejects all, and so does the rejection of the base. So discovery
succeeds exactly when every marked property on the chain of bases can be set, and then it gives
those of the levels one after the other. -/
theorem discovered_along_bases (d : ModelDocument) (calls : List InvocationDecl)
    (hfits : (d.names calls).toFinset.card ≤ UInt32.size) (bare : SymbolModel)
    (h : ofDocument d = .ok bare) (type : TypeDecl) (htype : type ∈ d.types)
    (names : WellKnownNames) (site : Location) :
    let m := ((calls.mapM invocationSite).run bare).2
    let discovered := m.port.discoverProperties (.resolve m names)
    ∃ t, m.typeRef? type.name = some t ∧ m.Composes type names t site ∧
      ∃ levels, m.Levels d.types type.name levels ∧
        ((∃ dependencies, discovered t site = .ok dependencies) ↔
          ∀ level ∈ levels, ∀ p ∈ m.properties level,
            m.carries names.propertyMarker p.member = true → m.port.isSettable p = true) ∧
        ∀ dependencies, discovered t site = .ok dependencies →
          dependencies = levels.flatMap (m.ownDependencies names) := by
  intro m discovered
  obtain ⟨hholds, _⟩ := holds_of_mapM_invocationSite hfits h
  have hname : type.name ∈ m.names := hholds.represents.mem_names htype List.mem_cons_self
  exact ⟨m.handleOf type.name, hholds.represents.knows_handleOf hname,
    hholds.composes htype names site, m.basesAndSelf (m.handleOf type.name),
    hholds.represents.levels hholds.acyclic hname,
    hholds.exists_discoverProperties_eq_ok_iff names _ site,
    fun _ hok => hholds.discoverProperties_eq hok⟩

def timedBase : TypeDecl :=
  { name := "Test.TimedBase"
    properties := [{
      name := "Clock"
      type := "Test.IClock"
      attributes := ["Wirebind.DependencyInjectionPropertyAttribute"]
      setter := some .privateAccess }] }

def timedService : TypeDecl :=
  { name := "Test.TimedService"
    base := some "Test.TimedBase"
    properties := [{
      name := "Clock"
      type := "Test.IClock"
      attributes := ["Wirebind.DependencyInjectionPropertyAttribute"]
      setter := some .publicAccess }] }

def timedHierarchy : ModelDocument := { types := [timedService, timedBase] }

/-- The marked property of the base is shadowed, and still rejects the service, as one of the
base. -/
theorem discovered_along_bases_timedHierarchy :
    (timedHierarchy.names []).toFinset.card ≤ UInt32.size ∧
    ∃ bare t, ofDocument timedHierarchy = .ok bare ∧
      bare.typeRef? "Test.TimedService" = some t ∧
      (bare.ownDependencies {} t).map Dependency.name = ["Clock"] ∧
      bare.port.discoverProperties (.resolve bare {}) t ⟨"Program.cs", 3, 9⟩ =
        .error [⟨.propertyMustBeSettable "Test.TimedBase.Clock", ⟨"Program.cs", 3, 9⟩⟩] := by
  have hfits : (timedHierarchy.names []).toFinset.card ≤ UInt32.size := by decide +kernel
  let service : TypeRef := ⟨0, "Test.TimedService"⟩
  let base : TypeRef := ⟨1, "Test.TimedBase"⟩
  have hhandles : (ofDocument timedHierarchy).toOption.map (fun bare =>
      (bare.typeRef? service.name, bare.typeRef? base.name,
        (bare.ownDependencies {} service).map Dependency.name)) =
      some (some service, some base, ["Clock"]) := by decide +kernel
  have hrefusals : (ofDocument timedHierarchy).toOption.map (fun bare =>
      (((bare.properties service).find? (bare.isRefused {})).isNone,
        ((bare.properties base).find? (bare.isRefused {})).map fun p =>
          (p.name, p.location.isNone, p.setterLocation.isNone))) =
      some (true, some ("Clock", true, true)) := by decide +kernel
  cases h : ofDocument timedHierarchy with
  | error failure =>
    rw [h] at hhandles
    contradiction
  | ok bare =>
    rw [h] at hhandles hrefusals
    simp only [Except.toOption, Option.map_some, Option.some.injEq, Prod.mk.injEq,
      Option.map_eq_some_iff, Option.isNone_iff_eq_none] at hhandles hrefusals
    obtain ⟨hservice, hbase, hown⟩ := hhandles
    obtain ⟨hnone, p, hrefused, hname, hlocation, hsetter⟩ := hrefusals
    obtain ⟨t, ht, hcomposes, _⟩ := discovered_along_bases timedHierarchy [] hfits bare h
      timedService List.mem_cons_self {} ⟨"Program.cs", 3, 9⟩
    obtain ⟨t', ht', hcomposes', _⟩ := discovered_along_bases timedHierarchy [] hfits bare h
      timedBase (List.mem_cons_of_mem _ (List.mem_singleton_self _)) {} ⟨"Program.cs", 3, 9⟩
    obtain rfl : service = t := Option.some.inj (hservice.symm.trans ht)
    obtain rfl : base = t' := Option.some.inj (hbase.symm.trans ht')
    obtain ⟨b, hb, hderived⟩ := hcomposes.derived hnone _ rfl
    obtain rfl : base = b := Option.some.inj (hbase.symm.trans hb)
    have hrejected := hcomposes'.refused p hrefused
    rw [hname, hlocation, hsetter] at hrejected
    refine ⟨hfits, bare, service, rfl, hservice, hown, hderived.trans ?_⟩
    exact congrArg (Except.map (bare.ownDependencies {} service ++ ·)) hrejected

end Wiring.SymbolModel
