import Wiring.Proofs.Analysis.Memory
import Wiring.Proofs.Analysis.Translation
import Wiring.Proofs.Model.Loading

/-! Identities do not show. Whatever identities an arena hands out, and whether or not it resolves a
well-known name, an analysis of the same declarations and calls says the same of the same names; and
what other calls intern before a site is bound has no part in what extraction makes of the site. -/
namespace Wiring

def AnalysisOutcome.mapTypes (φ : TypeRef → TypeRef) (o : AnalysisOutcome) : AnalysisOutcome :=
  { o with records := o.records.map (RegistrationRecord.mapTypes φ) }

section Outcomes

variable {φ : TypeRef → TypeRef}

theorem Dependency.mapTypes_comp (ψ : TypeRef → TypeRef) (d : Dependency) :
    (d.mapTypes φ).mapTypes ψ = d.mapTypes (ψ ∘ φ) := by
  rcases d with ⟨_, _ | _ | _, _⟩ <;> rfl

theorem RegistrationRecord.mapTypes_comp (ψ : TypeRef → TypeRef) (r : RegistrationRecord) :
    (r.mapTypes φ).mapTypes ψ = r.mapTypes (ψ ∘ φ) := by
  have hdependencies : Dependency.mapTypes ψ ∘ Dependency.mapTypes φ =
      Dependency.mapTypes (ψ ∘ φ) := funext (Dependency.mapTypes_comp ψ)
  simp only [mapTypes, List.map_map, hdependencies, Function.comp_apply]

theorem Extraction.record?_mapTypes (e : Extraction) :
    record? (mapTypes φ e) = (record? e).map (RegistrationRecord.mapTypes φ) := by
  cases e <;> rfl

theorem Extraction.diagnostics_mapTypes (e : Extraction) :
    diagnostics (mapTypes φ e) = diagnostics e := by
  cases e <;> rfl

theorem Extraction.isSkip_mapTypes (e : Extraction) : isSkip (mapTypes φ e) = isSkip e := by
  rcases e with _ | (_ | _) <;> rfl

theorem Extraction.isRejection_mapTypes (e : Extraction) :
    isRejection (mapTypes φ e) = isRejection e := by
  cases e <;> rfl

/-- Extractions with other handles are counted, validated and reported alike. -/
theorem ofExtractions_map_mapTypes (hname : ∀ t, (φ t).name = t.name)
    (detection : CycleDetection) (extractions : List Extraction) :
    AnalysisOutcome.ofExtractions detection (extractions.map (Extraction.mapTypes φ)) =
      (AnalysisOutcome.ofExtractions detection extractions).mapTypes φ := by
  have hcollected : (extractions.map (Extraction.mapTypes φ)).filterMap Extraction.record? =
      (extractions.filterMap Extraction.record?).map (RegistrationRecord.mapTypes φ) := by
    rw [List.filterMap_map, List.map_filterMap]
    exact List.filterMap_congr fun e _ => e.record?_mapTypes
  have hdiagnostics : (extractions.map (Extraction.mapTypes φ)).flatMap Extraction.diagnostics =
      extractions.flatMap Extraction.diagnostics := by
    rw [List.flatMap_map]
    exact List.flatMap_congr fun e _ => e.diagnostics_mapTypes
  have hskips : Extraction.isSkip ∘ Extraction.mapTypes φ = Extraction.isSkip :=
    funext Extraction.isSkip_mapTypes
  have hrejections : Extraction.isRejection ∘ Extraction.mapTypes φ = Extraction.isRejection :=
    funext Extraction.isRejection_mapTypes
  simp only [AnalysisOutcome.ofExtractions, AnalysisOutcome.mapTypes, hcollected, hdiagnostics,
    Graph.validate_map_mapTypes hname, List.length_map, List.countP_map, hskips, hrejections]

/-- Analysis of translated sites. -/
theorem Translates.analyze_eq {K : TypeRef → Prop} {m m' : SymbolPort} (h : Translates φ K m m')
    (options : AnalysisOptions) {sites : List InvocationSite}
    (htypes : ∀ site ∈ sites, ∀ t ∈ site.typeArguments, K t) :
    analyze m' options (sites.map (InvocationSite.mapTypes φ)) =
      (analyze m options sites).mapTypes φ := by
  have hextract : (sites.map (InvocationSite.mapTypes φ)).map
        (Extractor.ofOptions m' options).extract =
      (sites.map (Extractor.ofOptions m options).extract).map (Extraction.mapTypes φ) := by
    rw [List.map_map, List.map_map]
    exact List.map_congr_left fun site hsite => h.extract_eq options (htypes site hsite)
  rw [Wiring.analyze_eq, Wiring.analyze_eq, hextract, ofExtractions_map_mapTypes h.name_eq]

end Outcomes

/-- An analysis depends on names only, as long as there are identities for all of them. The order of
the declarations and the references decide which identities there are and which well-known types
resolve; but whether a document loads, what is reported and counted, which records there are but for
identities, and the code written for them are the same. -/
theorem analyze_names_only {d d' : ModelDocument} (hinvocations : d.invocations = d'.invocations)
    (htypes : d.types.Perm d'.types)
    (hfits : (d.names d.invocations).toFinset.card ≤ UInt32.size)
    (hfits' : (d'.names d'.invocations).toFinset.card ≤ UInt32.size)
    (options : AnalysisOptions) (emission : EmitOptions) :
    (∃ failure failure', SymbolModel.load d = .error failure ∧
      SymbolModel.load d' = .error failure') ∨
    ∃ m sites m' sites', SymbolModel.load d = .ok (m, sites) ∧
      SymbolModel.load d' = .ok (m', sites') ∧
      (analyze m options sites).diagnostics = (analyze m' options sites').diagnostics ∧
      (analyze m options sites).stats = (analyze m' options sites').stats ∧
      (analyze m options sites).records.map (RegistrationRecord.mapTypes TypeRef.nameOnly) =
        (analyze m' options sites').records.map (RegistrationRecord.mapTypes TypeRef.nameOnly) ∧
      Emission.emit emission (analyze m options sites).records =
        Emission.emit emission (analyze m' options sites').records := by
  by_cases hwell : TypeDecl.WellFormed d.types
  · obtain ⟨m, hholds, hload⟩ := SymbolModel.exists_load_eq_ok hfits hwell
    obtain ⟨m', hholds', hload'⟩ := SymbolModel.exists_load_eq_ok hfits' (hwell.of_perm htypes)
    have htranslates := (hholds.corresponds_of_perm hholds' htypes).translates
    -- handles of the first model become those that the second has for the same names
    have hsites : (d.invocations.map (InvocationDecl.read m.ids)).map
        (InvocationSite.mapTypes m'.retarget) = d'.invocations.map (InvocationDecl.read m'.ids) := by
      rw [List.map_map, ← hinvocations]
      exact List.map_congr_left fun call _ => SymbolModel.mapTypes_retarget_read m.ids m' call
    have hknown : ∀ site ∈ d.invocations.map (InvocationDecl.read m.ids), ∀ t ∈ site.typeArguments,
        m.HandleIn (fun name => name ∈ m.names ∧ name ∈ m'.names) t := by
      intro site hsite t ht
      obtain ⟨call, hcall, rfl⟩ := List.mem_map.mp hsite
      obtain ⟨name, hname, rfl⟩ := List.mem_map.mp ht
      exact ⟨name, ⟨hholds.mem_names_of_typeArguments hcall hname,
        hholds'.mem_names_of_typeArguments (hinvocations ▸ hcall) hname⟩, rfl⟩
    have hanalyze := htranslates.analyze_eq options hknown
    rw [hsites] at hanalyze
    refine .inr ⟨m, _, m', _, hload, hload', ?_⟩
    rw [hanalyze]
    refine ⟨rfl, rfl, ?_, (Emission.emit_map_mapTypes htranslates.name_eq emission _).symm⟩
    have herased : TypeRef.nameOnly ∘ m'.retarget = TypeRef.nameOnly := rfl
    unfold AnalysisOutcome.mapTypes
    rw [List.map_map]
    refine List.map_congr_left fun r _ => ?_
    rw [Function.comp_apply, RegistrationRecord.mapTypes_comp, herased]
  · have hwell' : ¬ TypeDecl.WellFormed d'.types := fun hwell' => hwell (hwell'.of_perm htypes.symm)
    obtain ⟨failure, hfailure⟩ := SymbolModel.exists_load_eq_error hfits hwell
    obtain ⟨failure', hfailure'⟩ := SymbolModel.exists_load_eq_error hfits' hwell'
    exact .inl ⟨failure, failure', hfailure, hfailure'⟩

/-- A call that registers types. -/
def registerCall (typeArguments : List String) (line : UInt32) : InvocationDecl :=
  { method := "Register"
    typeArguments
    location := ⟨"Program.cs", line, 9⟩
    binding := some ⟨"Wirebind.Registrations", false, []⟩ }

/-- A clock and a service that asks for it lazily, both registered. -/
def registeredClock : ModelDocument :=
  { references := ["System.Lazy`1"]
    types := [
      { name := "Test.Clock", constructors := [{}] }
      , { name := "Test.Service"
          constructors := [{ parameters := [⟨"clock", "System.Lazy<Test.Clock>", none⟩] }] }
      , { name := "System.Lazy<Test.Clock>"
          definition := some "System.Lazy`1"
          typeArguments := ["Test.Clock"] }]
    invocations := [
      registerCall ["Test.IClock", "Test.Clock"] 2
      , registerCall ["Test.IService", "Test.Service"] 3] }

/-- The same with the types in the reverse order and without the reference. -/
def reversedClock : ModelDocument :=
  { registeredClock with references := [], types := registeredClock.types.reverse }

/-- In one of the models the wrapper type is resolved, in the other it is told by its name. -/
theorem analyze_names_only_reversedClock :
    registeredClock.invocations = reversedClock.invocations ∧
    registeredClock.types.Perm reversedClock.types ∧
    (registeredClock.names registeredClock.invocations).toFinset.card ≤ UInt32.size ∧
    (reversedClock.names reversedClock.invocations).toFinset.card ≤ UInt32.size ∧
    ∃ m sites m' sites', SymbolModel.load registeredClock = .ok (m, sites) ∧
      SymbolModel.load reversedClock = .ok (m', sites') ∧
      (m.resolveWellKnown? "System.Lazy`1").isSome = true ∧
      (m'.resolveWellKnown? "System.Lazy`1").isSome = false ∧
      (analyze m {} sites).diagnostics = (analyze m' {} sites').diagnostics ∧
      Emission.emit {} (analyze m {} sites).records =
        Emission.emit {} (analyze m' {} sites').records := by
  have hinvocations : registeredClock.invocations = reversedClock.invocations := rfl
  have htypes : registeredClock.types.Perm reversedClock.types := (List.reverse_perm _).symm
  have hfits : (registeredClock.names registeredClock.invocations).toFinset.card ≤ UInt32.size := by
    decide +kernel
  have hfits' : (reversedClock.names reversedClock.invocations).toFinset.card ≤ UInt32.size := by
    decide +kernel
  have hresolved : ((SymbolModel.load registeredClock).toOption.map fun loaded =>
      (loaded.1.resolveWellKnown? "System.Lazy`1").isSome) = some true := by decide +kernel
  have hunresolved : ((SymbolModel.load reversedClock).toOption.map fun loaded =>
      (loaded.1.resolveWellKnown? "System.Lazy`1").isSome) = some false := by decide +kernel
  refine ⟨hinvocations, htypes, hfits, hfits', ?_⟩
  rcases analyze_names_only hinvocations htypes hfits hfits' {} {} with
    ⟨failure, _, hfailure, _⟩ | ⟨m, sites, m', sites', hload, hload', hdiagnostics, _, _, hcode⟩
  · rw [hfailure] at hresolved
    contradiction
  · rw [hload] at hresolved
    rw [hload'] at hunresolved
    exact ⟨m, sites, m', sites', hload, hload', Option.some.inj hresolved,
      Option.some.inj hunresolved, hdiagnostics, hcode⟩

/-- The record with the names of its own types, its dependencies as they are. -/
def RegistrationRecord.withoutTypeIds (r : RegistrationRecord) : RegistrationRecord :=
  { r with interface := r.interface.nameOnly, concrete := r.concrete.nameOnly }

def Extraction.withoutTypeIds : Extraction → Extraction :=
  Except.map (Option.map RegistrationRecord.withoutTypeIds)

theorem Dependency.mapTypes_id : Dependency.mapTypes id = id := by
  funext d
  rcases d with ⟨_, _ | _ | _, _⟩ <;> rfl

/-- A type without constructors can only be supplied by the caller. -/
theorem Extractor.dependencies_of_constructors_eq_nil (e : Extractor) (shape : CallShape)
    {concrete : TypeRef} (h : e.model.constructors concrete = []) (site : Location) :
    e.dependencies shape concrete site =
      if shape = .registerConstant then .ok ([], [])
      else .error [⟨.noValidConstructor concrete.name, site⟩] := by
  have hselect : e.model.selectConstructor e.known concrete site =
      .error [⟨.noValidConstructor concrete.name, site⟩] := by
    unfold SymbolPort.selectConstructor SymbolPort.injectableConstructors
    rw [h]
    rfl
  cases shape with
  | registerConstant => rfl
  | register | registerLazySingleton =>
    unfold dependencies
    rw [hselect]
    rfl

section Sites

variable {bare m m' : SymbolModel} {d : ModelDocument} {calls calls' : List InvocationDecl}

/-- A type that only calls mention has no members in any model; all others have one handle in all
models. -/
theorem dependencies_eq_of_grown (hbare : bare.Holds d []) (h : m.Holds d calls)
    (h' : m'.Holds d calls') (hgrown : bare.Grown m) (hgrown' : bare.Grown m')
    (options : AnalysisOptions) (shape : CallShape) {name : String} (hname : name ∈ m.names)
    (hname' : name ∈ m'.names) (site : Location) :
    (Extractor.ofOptions m' options).dependencies shape (m'.handleOf name) site =
      (Extractor.ofOptions m options).dependencies shape (m.handleOf name) site := by
  by_cases hknown : name ∈ bare.names
  · -- the document mentions the type, so both models have the handle that `bare` has
    have hcorresponds := hbare.corresponds_of_grown h h' hgrown hgrown'
    have hdependencies := hcorresponds.translates.dependencies_eq options shape
      ⟨name, hknown, rfl⟩ site
    rw [hcorresponds.handleOf_eq name hknown, Dependency.mapTypes_id, List.map_id_fun,
      Prod.map_id] at hdependencies
    rw [hdependencies]
    cases (Extractor.ofOptions m options).dependencies shape (m.handleOf name) site <;> rfl
  · -- only calls mention the type, so there is no declaration of it
    have hbareType : TypeDecl.find d.types name = { name } :=
      TypeDecl.find_eq_bare fun hmem => hknown (hbare.represents.names_prefix.subset hmem)
    have hnone : m.constructors (m.handleOf name) = [] := by
      rw [h.represents.constructors_handleOf hname, hbareType]
      rfl
    have hnone' : m'.constructors (m'.handleOf name) = [] := by
      rw [h'.represents.constructors_handleOf hname', hbareType]
      rfl
    rw [Extractor.dependencies_of_constructors_eq_nil _ shape hnone',
      Extractor.dependencies_of_constructors_eq_nil _ shape hnone]
    rfl

theorem extract_eq_of_grown (hbare : bare.Holds d []) (h : m.Holds d calls)
    (h' : m'.Holds d calls') (hgrown : bare.Grown m) (hgrown' : bare.Grown m')
    (options : AnalysisOptions) {call : InvocationDecl} (hcall : call ∈ calls)
    (hcall' : call ∈ calls') :
    Extraction.withoutTypeIds ((Extractor.ofOptions m' options).extract (call.read m'.ids)) =
      Extraction.withoutTypeIds ((Extractor.ofOptions m options).extract (call.read m.ids)) := by
  have hshape : (call.read m'.ids).shape? (Extractor.ofOptions m' options).registrationsType =
    (call.read m.ids).shape? (Extractor.ofOptions m options).registrationsType := rfl
  have htypes : (call.read m'.ids).registeredTypes? =
      (call.read m.ids).registeredTypes?.map (Prod.map m'.retarget m'.retarget) := by
    rw [← SymbolModel.mapTypes_retarget_read m.ids m', InvocationSite.registeredTypes?_mapTypes]
  unfold Extractor.extract
  rw [hshape, htypes]
  cases (call.read m.ids).shape? (Extractor.ofOptions m options).registrationsType with
  | none => rfl
  | some shape =>
    cases hregistered : (call.read m.ids).registeredTypes? with
    | none => rfl
    | some types =>
      obtain ⟨interface, concrete⟩ := types
      obtain ⟨name, hname, rfl⟩ : ∃ name ∈ call.typeArguments, m.handleOf name = concrete :=
        List.mem_map.mp (InvocationSite.concrete_mem_typeArguments hregistered)
      have hretarget : m'.retarget (m.handleOf name) = m'.handleOf name := rfl
      have hlocation : ∀ ids, (call.read ids).location = call.location := fun _ => rfl
      have hdependencies := dependencies_eq_of_grown hbare h h' hgrown hgrown' options shape
        (h.mem_names_of_typeArguments hcall hname) (h'.mem_names_of_typeArguments hcall' hname)
        call.location
      simp only [Option.map_some, Prod.map, hretarget, hlocation, hdependencies]
      cases (Extractor.ofOptions m options).dependencies shape (m.handleOf name) call.location <;>
        rfl

/-- Sites are extracted independently. The site that the model of all calls gives to one of them is
extracted as it is in the model of a document with this call alone: it is skipped, it is rejected
for the same reasons, or it gives the same record, in which only the identities of interface and
concrete type can differ. -/
theorem extract_alone {d : ModelDocument}
    (hfits : (d.names d.invocations).toFinset.card ≤ UInt32.size) {m : SymbolModel}
    {sites : List InvocationSite} (h : SymbolModel.load d = .ok (m, sites)) {position : Nat}
    {call : InvocationDecl} (hcall : d.invocations[position]? = some call)
    (options : AnalysisOptions) :
    ∃ site alone siteAlone, sites[position]? = some site ∧
      SymbolModel.load { d with invocations := [call] } = .ok (alone, [siteAlone]) ∧
      Extraction.withoutTypeIds ((Extractor.ofOptions alone options).extract siteAlone) =
        Extraction.withoutTypeIds ((Extractor.ofOptions m options).extract site) := by
  have hmem : call ∈ d.invocations := List.mem_of_getElem? hcall
  have hfitsBare : (d.names []).toFinset.card ≤ UInt32.size :=
    (d.card_names_le (List.nil_subset _)).trans hfits
  have hfitsAlone : (d.names [call]).toFinset.card ≤ UInt32.size :=
    (d.card_names_le (List.cons_subset.mpr ⟨hmem, List.nil_subset _⟩)).trans hfits
  cases hdocument : SymbolModel.ofDocument d with
  | error failure =>
    rw [SymbolModel.load_eq_error hdocument] at h
    contradiction
  | ok bare =>
    have hbare : bare.Holds d [] := SymbolModel.holds_of_ofDocument hfitsBare hdocument
    have hindexed : bare.Indexed := hbare.represents.indexed
    obtain ⟨hholds, hsites⟩ := SymbolModel.holds_of_mapM_invocationSite hfits hdocument
    obtain ⟨halone, hsiteAlone⟩ := SymbolModel.holds_of_mapM_invocationSite hfitsAlone hdocument
    rw [SymbolModel.load_eq hdocument, hsites] at h
    cases h
    refine ⟨_, _, _, ?_, ?_, extract_eq_of_grown hbare hholds halone
      (hindexed.grown_invocationSites d.invocations) (hindexed.grown_invocationSites [call])
      options hmem (List.mem_singleton_self call)⟩
    · rw [List.getElem?_map, hcall]
      rfl
    · have hload := @SymbolModel.load_eq _ { d with invocations := [call] } hdocument
      rwa [hsiteAlone] at hload

/-- Registered after the clock or alone, the service has two identities but one record. -/
theorem extract_alone_registeredClock :
    (registeredClock.names registeredClock.invocations).toFinset.card ≤ UInt32.size ∧
    ∃ call m sites site alone siteAlone, registeredClock.invocations[1]? = some call ∧
      SymbolModel.load registeredClock = .ok (m, sites) ∧ sites[1]? = some site ∧
      SymbolModel.load { registeredClock with invocations := [call] } =
        .ok (alone, [siteAlone]) ∧
      site.typeArguments ≠ siteAlone.typeArguments ∧
      Extraction.withoutTypeIds ((Extractor.ofOptions alone {}).extract siteAlone) =
        Extraction.withoutTypeIds ((Extractor.ofOptions m {}).extract site) := by
  let call : InvocationDecl := registerCall ["Test.IService", "Test.Service"] 3
  have hfits : (registeredClock.names registeredClock.invocations).toFinset.card ≤ UInt32.size := by
    decide +kernel
  have hcall : registeredClock.invocations[1]? = some call := rfl
  have htypes :
      ((SymbolModel.load registeredClock).toOption.bind fun loaded =>
        loaded.2[1]?.map InvocationSite.typeArguments) ≠
      (SymbolModel.load { registeredClock with invocations := [call] }).toOption.bind fun loaded =>
        loaded.2[0]?.map InvocationSite.typeArguments := by decide +kernel
  have hloads : (SymbolModel.load registeredClock).isOk = true := by decide +kernel
  refine ⟨hfits, call, ?_⟩
  cases hload : SymbolModel.load registeredClock with
  | error failure =>
    rw [hload] at hloads
    contradiction
  | ok loaded =>
    obtain ⟨m, sites⟩ := loaded
    obtain ⟨site, alone, siteAlone, hsite, halone, hextract⟩ := extract_alone hfits hload hcall {}
    rw [hload, halone] at htypes
    change sites[1]?.map InvocationSite.typeArguments ≠ some siteAlone.typeArguments at htypes
    rw [hsite] at htypes
    exact ⟨m, sites, site, alone, siteAlone, hcall, rfl, hsite, halone,
      fun heq => htypes (congrArg some heq), hextract⟩

end Sites
end Wiring
