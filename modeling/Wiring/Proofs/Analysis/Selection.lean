import Wiring.Analysis.Constructor
import Wiring.Proofs.Analysis.Classification

/-! Constructor selection by declarations. The constructors that injection may use are some of those
declared, but each keeps the ordinal that it has among all of them; so its attributes and its
accessibility are those of its own declaration. -/
namespace Wiring

namespace TypeDecl

/-- The constructors that are neither static nor synthesized, each with its place among all. -/
def eligible (d : TypeDecl) : List (ConstructorDecl × Nat) :=
  d.constructors.zipIdx.filter fun c => !c.1.isStatic && !c.1.isSynthesized

/-- Those of them that have an attribute of the class `marker`. -/
def marked (d : TypeDecl) (marker : String) : List (ConstructorDecl × Nat) :=
  d.eligible.filter fun c => c.1.attributes.contains marker

/-- A constructor is designated when it is the only eligible one, or of several the only marked. -/
inductive Designates (d : TypeDecl) (marker : String) : ConstructorDecl × Nat → Prop where
  | only {c : ConstructorDecl × Nat} (h : d.eligible = [c]) : Designates d marker c
  | marked {c : ConstructorDecl × Nat} (hseveral : 2 ≤ d.eligible.length)
      (h : d.marked marker = [c]) : Designates d marker c

variable {d : TypeDecl} {marker : String} {c : ConstructorDecl × Nat}

theorem getElem?_of_mem_eligible (h : c ∈ d.eligible) : d.constructors[c.2]? = some c.1 :=
  List.mk_mem_zipIdx_iff_getElem?.mp (List.mem_of_mem_filter h)

theorem Designates.mem_eligible (h : d.Designates marker c) : c ∈ d.eligible := by
  cases h with
  | only h => exact h ▸ List.mem_singleton_self c
  | marked _ h =>
    have hmem : c ∈ d.marked marker := h ▸ List.mem_singleton_self c
    exact List.mem_of_mem_filter hmem

theorem exists_designates_iff :
    (∃ c, d.Designates marker c) ↔
      d.eligible.length = 1 ∨ 2 ≤ d.eligible.length ∧ (d.marked marker).length = 1 := by
  constructor
  · rintro ⟨c, h⟩
    cases h with
    | only h => exact .inl (congrArg List.length h)
    | marked hseveral h => exact .inr ⟨hseveral, congrArg List.length h⟩
  · rintro (hone | ⟨hseveral, hone⟩)
    · obtain ⟨c, h⟩ := List.length_eq_one_iff.mp hone
      exact ⟨c, .only h⟩
    · obtain ⟨c, h⟩ := List.length_eq_one_iff.mp hone
      exact ⟨c, .marked hseveral h⟩

/-- Where nothing is designated, there is either nothing to choose or too much. -/
theorem designates_or (d : TypeDecl) (marker : String) :
    (∃ c, d.Designates marker c) ∨
      (d.eligible = [] ∨ 2 ≤ d.eligible.length ∧ d.marked marker = []) ∨
      2 ≤ d.eligible.length ∧ 2 ≤ (d.marked marker).length := by
  rw [exists_designates_iff, ← List.length_eq_zero_iff, ← List.length_eq_zero_iff]
  omega

end TypeDecl

namespace SymbolPort

variable {m : SymbolPort} {known : KnownSymbols} {concrete : TypeRef} {site : Location}
variable {candidates : List ConstructorCandidate}

/-- The candidates that carry the constructor marker. -/
def markedCandidates (m : SymbolPort) (known : KnownSymbols)
    (candidates : List ConstructorCandidate) : List ConstructorCandidate :=
  candidates.filter fun c => m.hasMarker c.member known.constructorMarker

theorem chooseConstructor_of_unmarked (hseveral : 2 ≤ candidates.length)
    (hmarked : m.markedCandidates known candidates = []) :
    m.chooseConstructor known concrete site candidates =
      .error [⟨.noValidConstructor concrete.name, site⟩] := by
  obtain _ | ⟨_, _ | ⟨_, _⟩⟩ := candidates
  · contradiction
  · contradiction
  · unfold markedCandidates at hmarked
    simp only [chooseConstructor, hmarked]

theorem chooseConstructor_of_marked (hseveral : 2 ≤ candidates.length) {c : ConstructorCandidate}
    (hmarked : m.markedCandidates known candidates = [c]) :
    m.chooseConstructor known concrete site candidates = .ok c := by
  obtain _ | ⟨_, _ | ⟨_, _⟩⟩ := candidates
  · contradiction
  · contradiction
  · unfold markedCandidates at hmarked
    simp only [chooseConstructor, hmarked]

theorem chooseConstructor_of_several_marked (hseveral : 2 ≤ candidates.length)
    (hmarked : 2 ≤ (m.markedCandidates known candidates).length) :
    m.chooseConstructor known concrete site candidates =
      .error ((m.markedCandidates known candidates).tail.map fun c =>
        ⟨.multipleConstructorsMarked concrete.name, c.location.getD site⟩) := by
  obtain _ | ⟨_, _ | ⟨_, _⟩⟩ := candidates
  · contradiction
  · contradiction
  · generalize hcase : m.markedCandidates known _ = marked at hmarked
    obtain _ | ⟨_, _ | ⟨_, _⟩⟩ := marked
    · contradiction
    · contradiction
    · unfold markedCandidates at hcase
      simp only [chooseConstructor, hcase, List.tail_cons]

end SymbolPort

namespace SymbolModel

/-- What selection makes of the declaration of `t`. -/
structure Selects (m : SymbolModel) (d : TypeDecl) (names : WellKnownNames) (t : TypeRef)
    (site : Location) (selection : Except Rejection SelectedConstructor) : Prop where
  succeeds_iff : (∃ selected, selection = .ok selected) ↔
    (d.eligible.length = 1 ∨
      2 ≤ d.eligible.length ∧ (d.marked names.constructorMarker).length = 1) ∧
    ∀ c, d.Designates names.constructorMarker c →
      c.1.accessibility ∈ [.internalAccess, .publicAccess]
  /-- The member has the place of the designated constructor, which is what it was declared as. -/
  designated : ∀ c position, d.Designates names.constructorMarker (c, position) →
    c.accessibility ∈ [.internalAccess, .publicAccess] →
    d.constructors[position]? = some c ∧
    ∃ selected ordinal, selection = .ok selected ∧
      (m.constructors t)[position]? = some selected.constructor ∧
      selected.constructor.member = .constructor t ordinal ∧ ordinal.toNat = position ∧
      List.Forall₂ (fun parameter dependency => ∃ u, m.typeRef? parameter.type = some u ∧
        dependency = ⟨parameter.name, m.port.classify (.resolve m names) u, parameter.location⟩)
        c.parameters selected.dependencies
  inaccessible : ∀ c position, d.Designates names.constructorMarker (c, position) →
    c.accessibility ∉ [.internalAccess, .publicAccess] →
    selection = .error [⟨.constructorsMustBePublic d.name, c.location.getD site⟩]
  undesignated : d.eligible = [] ∨
      2 ≤ d.eligible.length ∧ d.marked names.constructorMarker = [] →
    selection = .error [⟨.noValidConstructor d.name, site⟩]
  /-- Every marked constructor after the first is reported, where it stands. -/
  ambiguous : 2 ≤ d.eligible.length → 2 ≤ (d.marked names.constructorMarker).length →
    selection = .error ((d.marked names.constructorMarker).tail.map fun c =>
      ⟨.multipleConstructorsMarked d.name, c.1.location.getD site⟩)

section Declared

variable {m : SymbolModel} {d : ModelDocument} {calls : List InvocationDecl} {name : String}

/-- A constructor of the type called `name`, as the model shows it. -/
def shown (m : SymbolModel) (name : String) (c : ConstructorDecl × Nat) : ConstructorCandidate :=
  c.1.candidate m.ids (m.handleOf name) c.2

theorem Represents.injectableConstructors_handleOf {types : List TypeDecl} (h : m.Represents types)
    (hname : name ∈ m.names) :
    m.port.injectableConstructors (m.handleOf name) =
      (TypeDecl.find types name).eligible.map (m.shown name) := by
  unfold SymbolPort.injectableConstructors
  rw [port_constructors, h.constructors_handleOf hname, List.filter_map]
  rfl

variable (hcount : (TypeDecl.find d.types name).constructors.length ≤ UInt64.size)
variable {c : ConstructorDecl × Nat}
include hcount

/-- The ordinal of a constructor leads back to its declaration. -/
theorem getElem?_ordinal (hc : c ∈ (TypeDecl.find d.types name).eligible) :
    (UInt64.ofNat c.2).toNat = c.2 ∧
      (TypeDecl.find d.types name).constructors[(UInt64.ofNat c.2).toNat]? = some c.1 := by
  have hget := TypeDecl.getElem?_of_mem_eligible hc
  obtain ⟨hlt, _⟩ := List.getElem?_eq_some_iff.mp hget
  have hordinal : (UInt64.ofNat c.2).toNat = c.2 :=
    UInt64.toNat_ofNat_of_lt' (Nat.lt_of_lt_of_le hlt hcount)
  rw [hordinal]
  exact ⟨rfl, hget⟩

theorem Holds.hasMarker_shown (h : m.Holds d calls) (hname : name ∈ m.names)
    (hc : c ∈ (TypeDecl.find d.types name).eligible) (marker : String) :
    m.port.hasMarker (m.shown name c).member (.resolve m marker) =
      c.1.attributes.contains marker := by
  obtain ⟨_, hget⟩ := getElem?_ordinal hcount hc
  have hattributes : m.attributes (m.shown name c).member = c.1.attributes.map m.handleOf := by
    change m.attributes (.constructor (m.handleOf name) (UInt64.ofNat c.2)) = _
    rw [h.represents.attributes_constructor_handleOf hname, hget]
    rfl
  have hclasses : ∀ name ∈ c.1.attributes, name ∈ m.names := fun _ hclass =>
    h.represents.mem_names_of_find (TypeDecl.mem_mentioned_of_constructor
      (List.mem_of_getElem? hget) (List.mem_append_right _ hclass))
  unfold SymbolPort.hasMarker
  rw [port_attributes, hattributes]
  exact h.any_recognizes hclasses marker

theorem Holds.markedCandidates_shown (h : m.Holds d calls) (hname : name ∈ m.names)
    (names : WellKnownNames) :
    m.port.markedCandidates (.resolve m names)
        ((TypeDecl.find d.types name).eligible.map (m.shown name)) =
      ((TypeDecl.find d.types name).marked names.constructorMarker).map (m.shown name) := by
  unfold SymbolPort.markedCandidates TypeDecl.marked
  rw [List.filter_map]
  exact congrArg _ (List.filter_congr fun c hc =>
    h.hasMarker_shown hcount hname hc names.constructorMarker)

theorem Represents.accessibility_shown (h : m.Represents d.types) (hname : name ∈ m.names)
    (hc : c ∈ (TypeDecl.find d.types name).eligible) :
    m.accessibility (m.shown name c).member = c.1.accessibility := by
  obtain ⟨_, hget⟩ := getElem?_ordinal hcount hc
  change m.accessibility (.constructor (m.handleOf name) (UInt64.ofNat c.2)) = _
  rw [h.accessibility_constructor_handleOf hname, hget]
  rfl

section Chosen

variable (names : WellKnownNames) (site : Location)

theorem Holds.chooseConstructor_of_designates (h : m.Holds d calls) (hname : name ∈ m.names)
    (hdesignates : (TypeDecl.find d.types name).Designates names.constructorMarker c) :
    m.port.chooseConstructor (.resolve m names) (m.handleOf name) site
        (m.port.injectableConstructors (m.handleOf name)) = .ok (m.shown name c) := by
  rw [h.represents.injectableConstructors_handleOf hname]
  cases hdesignates with
  | only honly =>
    rw [honly]
    rfl
  | marked hseveral honly =>
    refine SymbolPort.chooseConstructor_of_marked (by rwa [List.length_map]) ?_
    rw [h.markedCandidates_shown hcount hname, honly]
    rfl

theorem Holds.selectConstructor_of_designates (h : m.Holds d calls) (hname : name ∈ m.names)
    (hdesignates : (TypeDecl.find d.types name).Designates names.constructorMarker c) :
    m.port.selectConstructor (.resolve m names) (m.handleOf name) site =
      if c.1.accessibility.isAtLeastInternal then
        .ok ⟨m.shown name c, m.port.parameterDependencies (.resolve m names) (m.shown name c)⟩
      else .error [⟨.constructorsMustBePublic name, c.1.location.getD site⟩] := by
  unfold SymbolPort.selectConstructor
  rw [h.chooseConstructor_of_designates hcount names site hname hdesignates]
  simp only [port_accessibility, h.represents.accessibility_shown hcount hname hdesignates.mem_eligible]
  rfl

theorem Holds.selectConstructor_of_accessible (h : m.Holds d calls) (hname : name ∈ m.names)
    (hdesignates : (TypeDecl.find d.types name).Designates names.constructorMarker c)
    (haccessible : c.1.accessibility ∈ [.internalAccess, .publicAccess]) :
    m.port.selectConstructor (.resolve m names) (m.handleOf name) site =
      .ok ⟨m.shown name c, m.port.parameterDependencies (.resolve m names) (m.shown name c)⟩ := by
  rw [h.selectConstructor_of_designates hcount names site hname hdesignates]
  exact if_pos (c.1.accessibility.isAtLeastInternal_iff.mpr haccessible)

theorem Holds.selectConstructor_of_inaccessible (h : m.Holds d calls) (hname : name ∈ m.names)
    (hdesignates : (TypeDecl.find d.types name).Designates names.constructorMarker c)
    (hinaccessible : c.1.accessibility ∉ [.internalAccess, .publicAccess]) :
    m.port.selectConstructor (.resolve m names) (m.handleOf name) site =
      .error [⟨.constructorsMustBePublic name, c.1.location.getD site⟩] := by
  rw [h.selectConstructor_of_designates hcount names site hname hdesignates]
  exact if_neg (hinaccessible ∘ c.1.accessibility.isAtLeastInternal_iff.mp)

theorem Holds.selectConstructor_of_undesignated (h : m.Holds d calls) (hname : name ∈ m.names)
    (hnone : (TypeDecl.find d.types name).eligible = [] ∨
      2 ≤ (TypeDecl.find d.types name).eligible.length ∧
        (TypeDecl.find d.types name).marked names.constructorMarker = []) :
    m.port.selectConstructor (.resolve m names) (m.handleOf name) site =
      .error [⟨.noValidConstructor name, site⟩] := by
  unfold SymbolPort.selectConstructor
  rw [h.represents.injectableConstructors_handleOf hname]
  rcases hnone with hnone | ⟨hseveral, hnone⟩
  · rw [hnone]
    rfl
  · rw [SymbolPort.chooseConstructor_of_unmarked (by rwa [List.length_map])]
    · rfl
    · rw [h.markedCandidates_shown hcount hname, hnone]
      rfl

theorem Holds.selectConstructor_of_ambiguous (h : m.Holds d calls) (hname : name ∈ m.names)
    (hseveral : 2 ≤ (TypeDecl.find d.types name).eligible.length)
    (hmarked : 2 ≤ ((TypeDecl.find d.types name).marked names.constructorMarker).length) :
    m.port.selectConstructor (.resolve m names) (m.handleOf name) site =
      .error (((TypeDecl.find d.types name).marked names.constructorMarker).tail.map fun c =>
        ⟨.multipleConstructorsMarked name, c.1.location.getD site⟩) := by
  have hcandidates := h.markedCandidates_shown hcount hname names
  unfold SymbolPort.selectConstructor
  rw [h.represents.injectableConstructors_handleOf hname,
    SymbolPort.chooseConstructor_of_several_marked (by rwa [List.length_map]) (by rwa [hcandidates, List.length_map]), hcandidates,
    ← List.map_tail, List.map_map]
  rfl

omit hcount in
/-- The dependencies of a constructor are its parameters, one for one. -/
theorem Holds.forall₂_parameterDependencies (h : m.Holds d calls)
    (hc : c ∈ (TypeDecl.find d.types name).eligible) :
    List.Forall₂ (fun parameter dependency => ∃ u, m.typeRef? parameter.type = some u ∧
        dependency = ⟨parameter.name, m.port.classify (.resolve m names) u, parameter.location⟩)
      c.1.parameters (m.port.parameterDependencies (.resolve m names) (m.shown name c)) := by
  unfold SymbolPort.parameterDependencies
  change List.Forall₂ _ _ (List.map _ (List.map _ c.1.parameters))
  rw [List.map_map, List.forall₂_map_right_iff, List.forall₂_same]
  intro parameter hparameter
  have hmentioned : parameter.type ∈ c.1.mentioned :=
    List.mem_append_left _ (List.mem_map_of_mem hparameter)
  exact ⟨m.handleOf parameter.type, h.represents.knows_handleOf (h.represents.mem_names_of_find
    (TypeDecl.mem_mentioned_of_constructor
      (List.mem_of_getElem? (TypeDecl.getElem?_of_mem_eligible hc)) hmentioned)), rfl⟩

omit hcount in
theorem Represents.getElem?_constructors (h : m.Represents d.types) (hname : name ∈ m.names)
    (hc : c ∈ (TypeDecl.find d.types name).eligible) :
    (m.constructors (m.handleOf name))[c.2]? = some (m.shown name c) := by
  rw [h.constructors_handleOf hname, List.getElem?_map, List.getElem?_zipIdx,
    TypeDecl.getElem?_of_mem_eligible hc, Nat.zero_add]
  rfl

theorem Holds.selects (h : m.Holds d calls) (hname : name ∈ m.names) :
    m.Selects (TypeDecl.find d.types name) names (m.handleOf name) site
      (m.port.selectConstructor (.resolve m names) (m.handleOf name) site) where
  succeeds_iff := by
    constructor
    · rintro ⟨selected, hselected⟩
      rcases (TypeDecl.find d.types name).designates_or names.constructorMarker with
        hsome | hnone | ⟨hseveral, hmarked⟩
      · refine ⟨TypeDecl.exists_designates_iff.mp hsome, fun c hdesignates => ?_⟩
        by_contra hinaccessible
        rw [h.selectConstructor_of_inaccessible hcount names site hname hdesignates
          hinaccessible] at hselected
        contradiction
      · rw [h.selectConstructor_of_undesignated hcount names site hname hnone] at hselected
        contradiction
      · rw [h.selectConstructor_of_ambiguous hcount names site hname hseveral hmarked] at hselected
        contradiction
    · rintro ⟨hone, haccessible⟩
      obtain ⟨c, hdesignates⟩ := TypeDecl.exists_designates_iff.mpr hone
      exact ⟨_, h.selectConstructor_of_accessible hcount names site hname hdesignates
        (haccessible c hdesignates)⟩
  designated := by
    intro c position hdesignates haccessible
    have hmem := hdesignates.mem_eligible
    obtain ⟨hordinal, _⟩ := getElem?_ordinal hcount hmem
    refine ⟨TypeDecl.getElem?_of_mem_eligible hmem, _, UInt64.ofNat position,
      h.selectConstructor_of_accessible hcount names site hname hdesignates haccessible,
      h.represents.getElem?_constructors hname hmem, rfl, hordinal, ?_⟩
    exact h.forall₂_parameterDependencies names hmem
  inaccessible := by
    intro c position hdesignates hinaccessible
    rw [TypeDecl.name_find]
    exact h.selectConstructor_of_inaccessible hcount names site hname hdesignates hinaccessible
  undesignated := by
    rw [TypeDecl.name_find]
    exact h.selectConstructor_of_undesignated hcount names site hname
  ambiguous := by
    rw [TypeDecl.name_find]
    exact h.selectConstructor_of_ambiguous hcount names site hname

end Chosen
end Declared

/-- Selection, from the document on. For a declared type, as long as there are identities for all
names and ordinals for its constructors, exactly one constructor must be designated and be internal
or public; it is then selected, under its place among all constructors of the type, and its
parameters are the dependencies. Otherwise selection reports what is wrong: nothing to choose, each
marked constructor after the first, or a constructor that is out of reach. -/
theorem selected_by_declaration (d : ModelDocument) (calls : List InvocationDecl)
    (hfits : (d.names calls).toFinset.card ≤ UInt32.size) (bare : SymbolModel)
    (h : ofDocument d = .ok bare) (type : TypeDecl) (htype : type ∈ d.types)
    (hcount : type.constructors.length ≤ UInt64.size) (names : WellKnownNames) (site : Location) :
    let m := ((calls.mapM invocationSite).run bare).2
    ∃ t, m.typeRef? type.name = some t ∧
      m.Selects type names t site (m.port.selectConstructor (.resolve m names) t site) := by
  intro m
  obtain ⟨hholds, _⟩ := holds_of_mapM_invocationSite hfits h
  have hname : type.name ∈ m.names := hholds.represents.mem_names htype List.mem_cons_self
  have hfind : TypeDecl.find d.types type.name = type :=
    TypeDecl.find_of_mem hholds.represents.distinct htype
  rw [← hfind] at hcount
  refine ⟨m.handleOf type.name, hholds.represents.knows_handleOf hname, ?_⟩
  have hselects := hholds.selects hcount names site hname
  rwa [hfind] at hselects

/-- The constructor that is marked, after a static one and one that is not marked. -/
def markedConstructor : ConstructorDecl :=
  { accessibility := .internalAccess
    attributes := ["Wirebind.DependencyInjectionConstructorAttribute"]
    parameters := [⟨"clock", "Test.Clock", none⟩] }

def markedService : TypeDecl :=
  { name := "Test.Service", constructors := [{ isStatic := true }, {}, markedConstructor] }

/-- It keeps the ordinal 2, although only two constructors are eligible. -/
theorem selected_by_declaration_markedService :
    let d : ModelDocument := { types := [markedService] }
    let site : Location := ⟨"Program.cs", 3, 9⟩
    (d.names [serviceCall]).toFinset.card ≤ UInt32.size ∧
    markedService.constructors.length ≤ UInt64.size ∧
    markedService.eligible.length = 2 ∧
    ∃ bare, ofDocument d = .ok bare ∧
      let m := (([serviceCall].mapM invocationSite).run bare).2
      ∃ t selected, m.typeRef? markedService.name = some t ∧
        m.port.selectConstructor (.resolve m {}) t site = .ok selected ∧
        selected.constructor.member = .constructor t 2 ∧
        ∃ u, m.typeRef? "Test.Clock" = some u ∧
          selected.dependencies = [⟨"clock", m.port.classify (.resolve m {}) u, none⟩] := by
  intro d site
  have hfits : (d.names [serviceCall]).toFinset.card ≤ UInt32.size := by decide +kernel
  have hcount : markedService.constructors.length ≤ UInt64.size := by decide +kernel
  have hbuilds : (ofDocument d).isOk = true := by decide +kernel
  cases h : ofDocument d with
  | error failure =>
    rw [h] at hbuilds
    contradiction
  | ok bare =>
    obtain ⟨t, ht, hselects⟩ := selected_by_declaration d [serviceCall] hfits bare h markedService
      (List.mem_singleton_self _) hcount {} site
    obtain ⟨_, selected, ordinal, hselected, _, hmember, hordinal, hdependencies⟩ :=
      hselects.designated markedConstructor 2 (.marked (by decide +kernel) (by decide +kernel))
        (by decide +kernel)
    obtain rfl : ordinal = 2 := UInt64.toNat_inj.mp hordinal
    obtain ⟨dependency, rest, ⟨u, hu, hdependency⟩, hrest, heq⟩ :=
      List.forall₂_cons_left_iff.mp hdependencies
    rw [List.forall₂_nil_left_iff.mp hrest, hdependency] at heq
    exact ⟨hfits, hcount, by decide +kernel, bare, rfl, t, selected, ht, hselected, hmember, u, hu,
      heq⟩
end SymbolModel
end Wiring
