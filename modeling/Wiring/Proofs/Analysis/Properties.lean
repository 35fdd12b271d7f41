import Wiring.Analysis.Property
import Wiring.Proofs.Analysis.Classification
import Wiring.Proofs.Model.Ancestry

/-! How properties are judged. A type shows each declared property in its place, but attributes and
accessibility are asked for by name; so of several properties of one name, the declaration of the
first decides whether any of them is marked, and how accessible its setter is. -/
namespace Wiring

/-- Accessibility of the declared setter; it is never more visible than the property. -/
def PropertyDecl.setterLevel (p : PropertyDecl) : Accessibility :=
  p.setter.elim .privateAccess fun setter => setter.least p.accessibility

/-- The declaration that is found under the name of a property: the first of that name. -/
def TypeDecl.property? (d : TypeDecl) (name : String) : Option PropertyDecl :=
  d.properties.find? fun p => p.name == name

namespace TypeDecl

variable {d : TypeDecl} {declared first : PropertyDecl}

theorem exists_property? (h : declared ∈ d.properties) :
    ∃ first, d.property? declared.name = some first :=
  Option.isSome_iff_exists.mp (List.find?_isSome.mpr ⟨declared, h, beq_self_eq_true _⟩)

theorem property?_eq_of_first {position : Nat} (h : d.properties[position]? = some declared)
    (hfirst : ∀ earlier < position, ∀ p, d.properties[earlier]? = some p →
      p.name ≠ declared.name) :
    d.property? declared.name = some declared := by
  obtain ⟨hlt, hget⟩ := List.getElem?_eq_some_iff.mp h
  refine List.find?_eq_some_iff_getElem.mpr ⟨beq_self_eq_true _, position, hlt, hget, ?_⟩
  intro earlier hearlier
  have hne := hfirst earlier hearlier _ (List.getElem?_eq_getElem (hearlier.trans hlt))
  simpa using hne

end TypeDecl

namespace SymbolPort

/-- The property as a dependency, whether or not it can be set. -/
def injected (m : SymbolPort) (known : KnownSymbols) (p : PropertyCandidate) : Dependency :=
  ⟨p.name, m.classify known p.type, p.location⟩

variable {m : SymbolPort} {known : KnownSymbols} {site : Location} {p : PropertyCandidate}
variable {properties above : List PropertyCandidate}

theorem propertyDependency_of_isSettable (h : m.isSettable p = true) :
    m.propertyDependency known site p = .ok (m.injected known p) :=
  if_pos h

theorem propertyDependency_of_not_isSettable (h : ¬ m.isSettable p = true) :
    m.propertyDependency known site p = .error [⟨.propertyMustBeSettable p.qualifiedName,
      (p.setterLocation.orElse fun _ => p.location).getD site⟩] :=
  if_neg h

theorem propertyDependencies_append (h : ∀ p ∈ properties, m.isSettable p = true) :
    m.propertyDependencies known site (properties ++ above) =
      (m.propertyDependencies known site above).map
        (properties.map (m.injected known) ++ ·) := by
  induction properties with
  | nil => cases habove : m.propertyDependencies known site above <;> simp [habove, Except.map]
  | cons p rest ih =>
    obtain ⟨hp, hrest⟩ := List.forall_mem_cons.mp h
    rw [List.cons_append, propertyDependencies, propertyDependency_of_isSettable hp, ih hrest]
    cases m.propertyDependencies known site above <;> rfl

theorem propertyDependencies_eq_ok (h : ∀ p ∈ properties, m.isSettable p = true) :
    m.propertyDependencies known site properties = .ok (properties.map (m.injected known)) := by
  have happend : m.propertyDependencies known site (properties ++ []) = _ :=
    propertyDependencies_append h
  simpa [propertyDependencies, Except.map] using happend

theorem propertyDependencies_eq_error (h : properties.find? (fun p => !m.isSettable p) = some p) :
    m.propertyDependencies known site properties =
      .error [⟨.propertyMustBeSettable p.qualifiedName,
        (p.setterLocation.orElse fun _ => p.location).getD site⟩] := by
  induction properties with
  | nil => contradiction
  | cons first rest ih =>
    rw [propertyDependencies]
    by_cases hfirst : m.isSettable first = true
    · rw [List.find?_cons_of_neg (by simpa using hfirst)] at h
      rw [propertyDependency_of_isSettable hfirst, ih h]
    · rw [List.find?_cons_of_pos (by simpa using hfirst)] at h
      obtain rfl := Option.some.inj h
      rw [propertyDependency_of_not_isSettable hfirst]

theorem exists_propertyDependencies_eq_ok_iff :
    (∃ dependencies, m.propertyDependencies known site properties = .ok dependencies) ↔
      ∀ p ∈ properties, m.isSettable p = true := by
  constructor
  · rintro ⟨dependencies, hok⟩
    by_contra hnot
    cases hfind : properties.find? fun p => !m.isSettable p with
    | none => exact hnot (by simpa using hfind)
    | some p =>
      rw [propertyDependencies_eq_error hfind] at hok
      contradiction
  · exact fun h => ⟨_, propertyDependencies_eq_ok h⟩

theorem discoverProperties_eq_of_ok {t : TypeRef} {dependencies : List Dependency}
    (h : m.discoverProperties known t site = .ok dependencies) :
    dependencies =
      ((m.basesAndSelf t).flatMap (m.markedProperties known)).map (m.injected known) := by
  unfold discoverProperties at h
  rw [propertyDependencies_eq_ok (exists_propertyDependencies_eq_ok_iff.mp ⟨_, h⟩)] at h
  exact (Except.ok.inj h).symm

end SymbolPort

namespace SymbolModel

/-- An attribute of the class `marker` is applied to the member. -/
def carries (m : SymbolModel) (marker : String) (member : MemberRef) : Bool :=
  ((m.attributes member).map TypeRef.name).contains marker

/-- The candidate `p` of `t` shows what is `declared`, and is judged by the declaration `first`. -/
structure Judged (m : SymbolModel) (t : TypeRef) (declared first : PropertyDecl)
    (p : PropertyCandidate) : Prop where
  owner_eq : p.owner = t
  name_eq : p.name = declared.name
  typeRef?_eq : m.typeRef? declared.type = some p.type
  hasSetter_eq : p.hasSetter = declared.setter.isSome
  location_eq : p.location = declared.location
  setterLocation_eq : p.setterLocation = declared.setterLocation
  attributes_eq : (m.attributes p.member).map TypeRef.name = first.attributes
  accessibility_eq : m.accessibility p.setter = first.setterLevel

section Judgement

variable {m : SymbolModel} {d : ModelDocument} {calls : List InvocationDecl} {name : String}
variable {t : TypeRef} {declared first : PropertyDecl} {p : PropertyCandidate}

theorem Represents.judged {types : List TypeDecl} (h : m.Represents types) (hname : name ∈ m.names)
    (hmem : declared ∈ (TypeDecl.find types name).properties)
    (hfirst : (TypeDecl.find types name).property? declared.name = some first) :
    m.Judged (m.handleOf name) declared first
      (declared.candidate m.ids (m.handleOf name)) where
  owner_eq := rfl
  name_eq := rfl
  typeRef?_eq := h.knows_handleOf (h.mem_names_of_find
    (TypeDecl.mem_mentioned_of_property hmem List.mem_cons_self))
  hasSetter_eq := rfl
  location_eq := rfl
  setterLocation_eq := rfl
  attributes_eq := by
    unfold TypeDecl.property? at hfirst
    change (m.attributes (.property (m.handleOf name) declared.name)).map TypeRef.name = _
    rw [h.attributes_property_handleOf hname, hfirst]
    exact map_name_handleOf m first.attributes
  accessibility_eq := by
    unfold TypeDecl.property? at hfirst
    change m.accessibility (.propertySetter (m.handleOf name) declared.name) = _
    rw [h.accessibility_propertySetter_handleOf hname, hfirst]
    rfl

theorem Judged.carries_iff (h : m.Judged t declared first p) (marker : String) :
    m.carries marker p.member = true ↔ marker ∈ first.attributes := by
  unfold carries
  rw [h.attributes_eq, List.contains_iff_mem]

/-- There must be a setter in its place, and the setter that is judged must be in reach. -/
theorem Judged.isSettable_iff (h : m.Judged t declared first p) :
    m.port.isSettable p = true ↔ declared.setter.isSome = true ∧
      first.setterLevel ∈ [.internalAccess, .publicAccess] := by
  unfold SymbolPort.isSettable
  rw [port_accessibility, h.hasSetter_eq, h.accessibility_eq, Bool.and_eq_true, Accessibility.isAtLeastInternal_iff]

theorem Represents.getElem?_properties {types : List TypeDecl} (h : m.Represents types)
    (hname : name ∈ m.names) {position : Nat}
    (hdeclared : (TypeDecl.find types name).properties[position]? = some declared) :
    (m.properties (m.handleOf name))[position]? =
      some (declared.candidate m.ids (m.handleOf name)) := by
  rw [h.properties_handleOf hname, List.getElem?_map, hdeclared]
  rfl

/-- The properties of a type are those of its declaration, place by place. -/
theorem Represents.forall₂_properties {types : List TypeDecl} (h : m.Represents types)
    (hname : name ∈ m.names) :
    List.Forall₂ (fun declared p => ∃ first,
        (TypeDecl.find types name).property? declared.name = some first ∧
        m.Judged (m.handleOf name) declared first p)
      (TypeDecl.find types name).properties (m.properties (m.handleOf name)) := by
  rw [h.properties_handleOf hname, List.forall₂_map_right_iff, List.forall₂_same]
  intro declared hmem
  obtain ⟨first, hfirst⟩ := TypeDecl.exists_property? hmem
  exact ⟨first, hfirst, h.judged hname hmem hfirst⟩

theorem Holds.hasMarker_eq (h : m.Holds d calls) (marker : String) (member : MemberRef) :
    m.port.hasMarker member (.resolve m marker) = m.carries marker member := by
  let classes := (m.attributes member).map TypeRef.name
  have hknown : ∀ a ∈ m.attributes member, a.name ∈ m.names ∧ a = m.handleOf a.name :=
    fun a ha => h.represents.knows_iff.mp (h.represents.knows_attributes h.acyclic ha)
  have hclasses : ∀ name ∈ classes, name ∈ m.names := by
    intro name hname
    obtain ⟨a, ha, rfl⟩ := List.mem_map.mp hname
    exact (hknown a ha).1
  have hattributes : classes.map m.handleOf = m.attributes member := by
    rw [List.map_map]
    exact (List.map_congr_left fun a ha => (hknown a ha).2.symm).trans (List.map_id _)
  unfold SymbolPort.hasMarker
  rw [port_attributes, ← hattributes]
  exact h.any_recognizes hclasses marker

theorem Holds.markedProperties_eq (h : m.Holds d calls) (names : WellKnownNames) (t : TypeRef) :
    m.port.markedProperties (.resolve m names) t =
      (m.properties t).filter fun p => m.carries names.propertyMarker p.member :=
  List.filter_congr fun p _ => h.hasMarker_eq names.propertyMarker p.member

end Judgement

/-- At every place of a declared type there is the candidate of the property declared there. It is
injected exactly when the first property of its name is marked, and accepted exactly when it has a
setter itself and that of the first is internal or public. So a property before which there is none
of its name is judged by its own declaration. -/
theorem judged_by_first_declaration (d : ModelDocument) (calls : List InvocationDecl)
    (hfits : (d.names calls).toFinset.card ≤ UInt32.size) (bare : SymbolModel)
    (h : ofDocument d = .ok bare) (type : TypeDecl) (htype : type ∈ d.types)
    (names : WellKnownNames) (site : Location) :
    let m := ((calls.mapM invocationSite).run bare).2
    let known := KnownSymbols.resolve m names
    ∃ t, m.typeRef? type.name = some t ∧
      (m.properties t).length = type.properties.length ∧
      (∀ (position : Nat) (declared : PropertyDecl), type.properties[position]? = some declared →
        ∃ p first, (m.properties t)[position]? = some p ∧
          type.property? declared.name = some first ∧ m.Judged t declared first p ∧
          (p ∈ m.port.markedProperties known t ↔ names.propertyMarker ∈ first.attributes) ∧
          (m.port.isSettable p = true ↔ declared.setter.isSome = true ∧
            first.setterLevel ∈ [.internalAccess, .publicAccess]) ∧
          ((∀ earlier < position, ∀ q, type.properties[earlier]? = some q →
            q.name ≠ declared.name) → first = declared)) ∧
      ∀ dependencies, m.port.discoverProperties known t site = .ok dependencies →
        (∀ p ∈ m.port.markedProperties known t, m.port.isSettable p = true) ∧
        ∃ inherited, dependencies =
          (m.port.markedProperties known t).map (m.port.injected known) ++ inherited := by
  intro m known
  obtain ⟨hholds, _⟩ := holds_of_mapM_invocationSite hfits h
  have hname : type.name ∈ m.names := hholds.represents.mem_names htype List.mem_cons_self
  have hfind : TypeDecl.find d.types type.name = type :=
    TypeDecl.find_of_mem hholds.represents.distinct htype
  have hlength := congrArg List.length (hholds.represents.properties_handleOf hname)
  rw [List.length_map, hfind] at hlength
  refine ⟨m.handleOf type.name, hholds.represents.knows_handleOf hname, hlength,
    fun position declared hdeclared => ?_, fun dependencies hok => ?_⟩
  · obtain ⟨first, hfirst⟩ := TypeDecl.exists_property? (List.mem_of_getElem? hdeclared)
    have hjudged := hholds.represents.judged hname (hfind.symm ▸ List.mem_of_getElem? hdeclared)
      (hfind.symm ▸ hfirst)
    have hplace := hholds.represents.getElem?_properties hname (hfind.symm ▸ hdeclared)
    refine ⟨_, first, hplace, hfirst, hjudged, ?_, hjudged.isSettable_iff, fun hnone => ?_⟩
    · rw [hholds.markedProperties_eq, List.mem_filter, hjudged.carries_iff]
      exact and_iff_right (List.mem_of_getElem? hplace)
    · have hown := TypeDecl.property?_eq_of_first hdeclared hnone
      exact Option.some.inj (hfirst.symm.trans hown)
  · have hsettable := SymbolPort.exists_propertyDependencies_eq_ok_iff.mp ⟨dependencies, hok⟩
    have heq := SymbolPort.discoverProperties_eq_of_ok hok
    -- the type itself is the first level of its chain
    rw [port_basesAndSelf] at hsettable heq
    unfold basesAndSelf at hsettable heq
    rw [List.flatMap_cons] at hsettable heq
    rw [List.map_append] at heq
    exact ⟨fun p hp => hsettable p (List.mem_append_left _ hp), _, heq⟩

def clockIndexer : PropertyDecl :=
  { name := "this[]", type := "Test.IClock", setter := some .publicAccess }

def loggerIndexer : PropertyDecl :=
  { name := "this[]"
    type := "Test.ILogger"
    attributes := ["Wirebind.DependencyInjectionPropertyAttribute"]
    setter := some .publicAccess }

/-- Indexers are properties of one name; only the second is marked. -/
def indexedRegistry : ModelDocument :=
  { types := [{ name := "Test.Registry", properties := [clockIndexer, loggerIndexer] }] }

/-- The second indexer is judged by the first, which is not marked. -/
theorem judged_by_first_declaration_indexedRegistry :
    (indexedRegistry.names [serviceCall]).toFinset.card ≤ UInt32.size ∧
    ∃ bare, ofDocument indexedRegistry = .ok bare ∧
      let m := (([serviceCall].mapM invocationSite).run bare).2
      ∃ t p, m.typeRef? "Test.Registry" = some t ∧ (m.properties t)[1]? = some p ∧
        m.Judged t loggerIndexer clockIndexer p ∧
        p ∉ m.port.markedProperties (.resolve m {}) t ∧ m.port.isSettable p = true := by
  have hfits : (indexedRegistry.names [serviceCall]).toFinset.card ≤ UInt32.size := by
    decide +kernel
  have hbuilds : (ofDocument indexedRegistry).isOk = true := by decide +kernel
  cases h : ofDocument indexedRegistry with
  | error failure =>
    rw [h] at hbuilds
    contradiction
  | ok bare =>
    obtain ⟨t, ht, _, hplaces, _⟩ := judged_by_first_declaration indexedRegistry [serviceCall] hfits
      bare h _ (List.mem_singleton_self _) {} ⟨"Program.cs", 3, 9⟩
    obtain ⟨p, first, hp, hfirst, hjudged, hmarked, hsettable, _⟩ := hplaces 1 loggerIndexer rfl
    obtain rfl : clockIndexer = first := Option.some.inj hfirst
    refine ⟨hfits, bare, rfl, t, p, ht, hp, hjudged, fun hmem => ?_, hsettable.mpr (by decide)⟩
    exact absurd (hmarked.mp hmem) (by decide)

/-- The second indexer is declared with the marker, but it carries none, and nothing is injected. -/
theorem not_judged_by_own_declaration :
    ∃ bare t p, ofDocument indexedRegistry = .ok bare ∧
      bare.typeRef? "Test.Registry" = some t ∧ (bare.properties t)[1]? = some p ∧
      loggerIndexer.attributes = ["Wirebind.DependencyInjectionPropertyAttribute"] ∧
      bare.attributes p.member = [] ∧
      bare.port.discoverProperties (.resolve bare {}) t ⟨"Program.cs", 3, 9⟩ = .ok [] := by
  let t : TypeRef := ⟨0, "Test.Registry"⟩
  let p : PropertyCandidate := loggerIndexer.candidate (fun _ => 2) t
  have hanswers : (ofDocument indexedRegistry).toOption.map (fun bare =>
      (bare.typeRef? "Test.Registry", (bare.properties t)[1]?, bare.attributes p.member,
        (bare.port.discoverProperties (.resolve bare {}) t ⟨"Program.cs", 3, 9⟩).toOption)) =
      some (some t, some p, [], some []) := by decide +kernel
  cases h : ofDocument indexedRegistry with
  | error failure =>
    rw [h] at hanswers
    contradiction
  | ok bare =>
    rw [h] at hanswers
    simp only [Except.toOption, Option.map_some, Option.some.injEq, Prod.mk.injEq] at hanswers
    obtain ⟨ht, hp, hattributes, hdiscovered⟩ := hanswers
    refine ⟨bare, t, p, rfl, ht, hp, rfl, hattributes, ?_⟩
    cases hcase : bare.port.discoverProperties (.resolve bare {}) t ⟨"Program.cs", 3, 9⟩ with
    | error rejection =>
      rw [hcase] at hdiscovered
      contradiction
    | ok dependencies =>
      rw [hcase] at hdiscovered
      exact congrArg Except.ok (Option.some.inj hdiscovered)

end SymbolModel
end Wiring
