import Wiring.Analysis.Extraction
import Wiring.Proofs.Graph.Renaming
import Wiring.Proofs.Model.Translation

/-! Extraction under translation. Whatever extraction asks of a model is translated into another
model of the same declarations, so a site whose types are translated gives the same rejection, or
the record with its handles translated. -/
namespace Wiring

def SelectedConstructor.mapTypes (φ : TypeRef → TypeRef) (s : SelectedConstructor) :
    SelectedConstructor :=
  ⟨s.constructor.mapTypes φ, s.dependencies.map (Dependency.mapTypes φ)⟩

def Extraction.mapTypes (φ : TypeRef → TypeRef) : Extraction → Extraction :=
  Except.map (Option.map (RegistrationRecord.mapTypes φ))

theorem InvocationSite.registeredTypes?_mapTypes (φ : TypeRef → TypeRef) (site : InvocationSite) :
    (site.mapTypes φ).registeredTypes? = site.registeredTypes?.map (Prod.map φ φ) := by
  unfold registeredTypes? mapTypes
  match site.typeArguments with
  | [] => rfl
  | [_] => rfl
  | [_, _] => rfl
  | _ :: _ :: _ :: _ => rfl

theorem InvocationSite.concrete_mem_typeArguments {site : InvocationSite}
    {types : TypeRef × TypeRef} (h : site.registeredTypes? = some types) :
    types.2 ∈ site.typeArguments := by
  unfold registeredTypes? at h
  split at h
  · rename_i hsingle
    cases h
    rw [hsingle]
    exact List.mem_singleton_self _
  · rename_i htwo
    cases h
    rw [htwo]
    exact List.mem_cons_of_mem _ (List.mem_singleton_self _)
  · contradiction

theorem SymbolPort.mem_of_chooseConstructor {m : SymbolPort} {known : KnownSymbols}
    {concrete : TypeRef} {site : Location} {candidates : List ConstructorCandidate}
    {chosen : ConstructorCandidate}
    (h : m.chooseConstructor known concrete site candidates = .ok chosen) :
    chosen ∈ candidates := by
  unfold SymbolPort.chooseConstructor at h
  split at h
  · contradiction
  · cases h
    exact List.mem_singleton_self _
  · split at h
    · contradiction
    · rename_i hmarked
      cases h
      have hmem := List.mem_singleton_self chosen
      rw [← hmarked] at hmem
      exact List.mem_of_mem_filter hmem
    · contradiction

namespace Translates

variable {φ : TypeRef → TypeRef} {K : TypeRef → Prop} {m m' : SymbolPort}

theorem hasMarker_eq (h : Translates φ K m m') (wellKnown : String) {member : MemberRef}
    (howner : K member.owner) :
    m'.hasMarker (member.mapTypes φ) (.resolve m' wellKnown) =
      m.hasMarker member (.resolve m wellKnown) := by
  unfold SymbolPort.hasMarker
  rw [h.attributes member howner, List.any_map, Bool.eq_iff_iff, List.any_eq_true,
    List.any_eq_true]
  refine exists_congr fun a => and_congr_right fun ha => ?_
  rw [Function.comp_apply, h.recognizes wellKnown a (h.closed.attributes member howner a ha)]

variable (names : WellKnownNames)

theorem classify_eq (h : Translates φ K m m') {t : TypeRef} (ht : K t) :
    m'.classify (.resolve m' names) (φ t) = (m.classify (.resolve m names) t).mapTypes φ := by
  have hdefinition : K (m.originalDefinition t) := h.closed.originalDefinition t ht
  have hlazy : (KnownSymbols.resolve m' names).lazy.recognizes (φ (m.originalDefinition t)) =
      (KnownSymbols.resolve m names).lazy.recognizes (m.originalDefinition t) :=
    h.recognizes names.lazy _ hdefinition
  have henumerable :
      (KnownSymbols.resolve m' names).enumerable.recognizes (φ (m.originalDefinition t)) =
        (KnownSymbols.resolve m names).enumerable.recognizes (m.originalDefinition t) :=
    h.recognizes names.enumerable _ hdefinition
  unfold SymbolPort.classify
  rw [h.genericArguments t ht, h.originalDefinition t ht, hlazy, henumerable]
  match m.genericArguments t with
  | [] => rfl
  | [argument] =>
    simp only [List.map_cons, List.map_nil]
    split
    · rfl
    · split <;> rfl
  | _ :: _ :: _ => rfl

section Constructors

theorem injectableConstructors_eq (h : Translates φ K m m') {concrete : TypeRef}
    (hconcrete : K concrete) :
    m'.injectableConstructors (φ concrete) =
      (m.injectableConstructors concrete).map (ConstructorCandidate.mapTypes φ) := by
  unfold SymbolPort.injectableConstructors
  rw [h.constructors concrete hconcrete, List.filter_map]
  rfl

theorem filter_hasMarker_eq (h : Translates φ K m m') (wellKnown : String)
    {candidates : List ConstructorCandidate} (howners : ∀ c ∈ candidates, K c.member.owner) :
    (candidates.map (ConstructorCandidate.mapTypes φ)).filter
        (fun c => m'.hasMarker c.member (.resolve m' wellKnown)) =
      (candidates.filter fun c => m.hasMarker c.member (.resolve m wellKnown)).map
        (ConstructorCandidate.mapTypes φ) := by
  rw [List.filter_map]
  exact congrArg _ (List.filter_congr fun c hc => h.hasMarker_eq wellKnown (howners c hc))

theorem chooseConstructor_eq (h : Translates φ K m m') (concrete : TypeRef) (site : Location)
    {candidates : List ConstructorCandidate} (howners : ∀ c ∈ candidates, K c.member.owner) :
    m'.chooseConstructor (.resolve m' names) (φ concrete) site
        (candidates.map (ConstructorCandidate.mapTypes φ)) =
      (m.chooseConstructor (.resolve m names) concrete site candidates).map
        (ConstructorCandidate.mapTypes φ) := by
  have hmarked := h.filter_hasMarker_eq names.constructorMarker howners
  -- markers count only where there is a choice
  rcases candidates with _ | ⟨first, _ | ⟨second, rest⟩⟩
  · simp only [List.map_nil, SymbolPort.chooseConstructor, h.name_eq]
    rfl
  · rfl
  · simp only [List.map_cons] at hmarked ⊢
    simp only [SymbolPort.chooseConstructor, KnownSymbols.resolve, hmarked, h.name_eq]
    generalize (first :: second :: rest).filter (fun c =>
      m.hasMarker c.member (.resolve m names.constructorMarker)) = marked
    rcases marked with _ | ⟨only, _ | ⟨other, others⟩⟩
    · rfl
    · rfl
    · simp only [List.map_cons, List.map_map]
      rfl

theorem parameterDependencies_eq (h : Translates φ K m m') {c : ConstructorCandidate}
    (htypes : ∀ p ∈ c.parameters, K p.type) :
    m'.parameterDependencies (.resolve m' names) (c.mapTypes φ) =
      (m.parameterDependencies (.resolve m names) c).map (Dependency.mapTypes φ) := by
  unfold SymbolPort.parameterDependencies ConstructorCandidate.mapTypes
  rw [List.map_map, List.map_map]
  exact List.map_congr_left fun p hp =>
    congrArg (Dependency.mk p.name · p.location) (h.classify_eq names (htypes p hp))

theorem selectConstructor_eq (h : Translates φ K m m') {concrete : TypeRef}
    (hconcrete : K concrete) (site : Location) :
    m'.selectConstructor (.resolve m' names) (φ concrete) site =
      (m.selectConstructor (.resolve m names) concrete site).map
        (SelectedConstructor.mapTypes φ) := by
  have hdeclared : ∀ c ∈ m.injectableConstructors concrete, c ∈ m.constructors concrete :=
    fun c hc => List.mem_of_mem_filter hc
  have howners : ∀ c ∈ m.injectableConstructors concrete, K c.member.owner :=
    fun c hc => h.closed.owner_constructors concrete hconcrete c (hdeclared c hc)
  unfold SymbolPort.selectConstructor
  rw [h.injectableConstructors_eq hconcrete, h.chooseConstructor_eq names concrete site howners]
  cases hchoose : m.chooseConstructor (.resolve m names) concrete site
    (m.injectableConstructors concrete) with
  | error rejection => rfl
  | ok chosen =>
    have hmem := SymbolPort.mem_of_chooseConstructor hchoose
    have haccessibility : m'.accessibility (chosen.mapTypes φ).member =
        m.accessibility chosen.member := h.accessibility chosen.member (howners chosen hmem)
    have hparameters := h.parameterDependencies_eq names
      (h.closed.type_constructors concrete hconcrete chosen (hdeclared chosen hmem))
    simp only [Except.map, haccessibility, hparameters, h.name_eq]
    split <;> rfl

end Constructors

section Properties

theorem isSettable_eq (h : Translates φ K m m') {p : PropertyCandidate} (howner : K p.owner) :
    m'.isSettable (p.mapTypes φ) = m.isSettable p :=
  congrArg (fun level : Accessibility => p.hasSetter && level.isAtLeastInternal)
    (h.accessibility p.setter howner)

theorem markedProperties_eq (h : Translates φ K m m') {t : TypeRef} (ht : K t) :
    m'.markedProperties (.resolve m' names) (φ t) =
      (m.markedProperties (.resolve m names) t).map (PropertyCandidate.mapTypes φ) := by
  unfold SymbolPort.markedProperties
  rw [h.properties t ht, List.filter_map]
  refine congrArg _ (List.filter_congr fun p hp => ?_)
  have howner : K p.member.owner := h.closed.owner_properties t ht p hp
  exact h.hasMarker_eq names.propertyMarker howner

theorem propertyDependency_eq (h : Translates φ K m m') (site : Location)
    {p : PropertyCandidate} (howner : K p.owner) (htype : K p.type) :
    m'.propertyDependency (.resolve m' names) site (p.mapTypes φ) =
      (m.propertyDependency (.resolve m names) site p).map (Dependency.mapTypes φ) := by
  have htarget : m'.classify (.resolve m' names) (p.mapTypes φ).type =
      (m.classify (.resolve m names) p.type).mapTypes φ := h.classify_eq names htype
  have hqualified : (p.mapTypes φ).qualifiedName = p.qualifiedName :=
    congrArg (· ++ "." ++ p.name) (h.name_eq p.owner)
  unfold SymbolPort.propertyDependency
  rw [h.isSettable_eq howner, htarget, hqualified]
  split <;> rfl

theorem propertyDependencies_eq (h : Translates φ K m m') (site : Location)
    {properties : List PropertyCandidate} (howners : ∀ p ∈ properties, K p.owner)
    (htypes : ∀ p ∈ properties, K p.type) :
    m'.propertyDependencies (.resolve m' names) site
        (properties.map (PropertyCandidate.mapTypes φ)) =
      (m.propertyDependencies (.resolve m names) site properties).map
        (List.map (Dependency.mapTypes φ)) := by
  induction properties with
  | nil => rfl
  | cons p rest ih =>
    obtain ⟨howner, howners⟩ := List.forall_mem_cons.mp howners
    obtain ⟨htype, htypes⟩ := List.forall_mem_cons.mp htypes
    simp only [List.map_cons, SymbolPort.propertyDependencies,
      h.propertyDependency_eq names site howner htype, ih howners htypes]
    cases m.propertyDependency (.resolve m names) site p with
    | error rejection => rfl
    | ok dependency => cases m.propertyDependencies (.resolve m names) site rest <;> rfl

theorem discoverProperties_eq (h : Translates φ K m m') {concrete : TypeRef}
    (hconcrete : K concrete) (site : Location) :
    m'.discoverProperties (.resolve m' names) (φ concrete) site =
      (m.discoverProperties (.resolve m names) concrete site).map
        (List.map (Dependency.mapTypes φ)) := by
  have hbases : ∀ base ∈ m.basesAndSelf concrete, K base :=
    h.closed.basesAndSelf concrete hconcrete
  have hmarked : (m'.basesAndSelf (φ concrete)).flatMap
        (m'.markedProperties (.resolve m' names)) =
      ((m.basesAndSelf concrete).flatMap (m.markedProperties (.resolve m names))).map
        (PropertyCandidate.mapTypes φ) := by
    rw [h.basesAndSelf concrete hconcrete, List.flatMap_map, List.map_flatMap]
    exact List.flatMap_congr fun base hbase => h.markedProperties_eq names (hbases base hbase)
  have hdeclared : ∀ p ∈ (m.basesAndSelf concrete).flatMap
      (m.markedProperties (.resolve m names)), K p.owner ∧ K p.type := by
    intro p hp
    obtain ⟨base, hbase, hp⟩ := List.mem_flatMap.mp hp
    have hmem : p ∈ m.properties base := List.mem_of_mem_filter hp
    exact ⟨h.closed.owner_properties base (hbases base hbase) p hmem,
      h.closed.type_properties base (hbases base hbase) p hmem⟩
  unfold SymbolPort.discoverProperties
  rw [hmarked]
  exact h.propertyDependencies_eq names site (fun p hp => (hdeclared p hp).1)
    fun p hp => (hdeclared p hp).2

end Properties

variable (options : AnalysisOptions)

theorem dependencies_eq (h : Translates φ K m m') (shape : CallShape) {concrete : TypeRef}
    (hconcrete : K concrete) (site : Location) :
    (Extractor.ofOptions m' options).dependencies shape (φ concrete) site =
      ((Extractor.ofOptions m options).dependencies shape concrete site).map
        (Prod.map (List.map (Dependency.mapTypes φ)) (List.map (Dependency.mapTypes φ))) := by
  have hselect := h.selectConstructor_eq options.wellKnown hconcrete site
  have hdiscover := h.discoverProperties_eq options.wellKnown hconcrete site
  cases shape with
  | registerConstant => rfl
  | register | registerLazySingleton =>
    simp only [Extractor.dependencies, Extractor.ofOptions, hselect, hdiscover]
    cases m.selectConstructor (.resolve m options.wellKnown) concrete site with
    | error rejection => rfl
    | ok selected =>
      cases m.discoverProperties (.resolve m options.wellKnown) concrete site <;> rfl

/-- Extraction of a translated site. -/
theorem extract_eq (h : Translates φ K m m') {site : InvocationSite}
    (htypes : ∀ t ∈ site.typeArguments, K t) :
    (Extractor.ofOptions m' options).extract (site.mapTypes φ) =
      Extraction.mapTypes φ ((Extractor.ofOptions m options).extract site) := by
  have hshape : (site.mapTypes φ).shape? (Extractor.ofOptions m' options).registrationsType =
    site.shape? (Extractor.ofOptions m options).registrationsType := rfl
  have hlocation : (site.mapTypes φ).location = site.location := rfl
  unfold Extractor.extract
  rw [hshape, hlocation, site.registeredTypes?_mapTypes]
  cases site.shape? (Extractor.ofOptions m options).registrationsType with
  | none => rfl
  | some shape =>
    cases hregistered : site.registeredTypes? with
    | none => rfl
    | some types =>
      obtain ⟨interface, concrete⟩ := types
      have hconcrete : K concrete := htypes _ (site.concrete_mem_typeArguments hregistered)
      simp only [Option.map_some, Prod.map, h.dependencies_eq options shape hconcrete site.location]
      cases (Extractor.ofOptions m options).dependencies shape concrete site.location <;> rfl

end Translates
end Wiring
