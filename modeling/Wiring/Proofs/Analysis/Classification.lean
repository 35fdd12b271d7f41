import Wiring.Proofs.Model.Translation

/-! How types are classified. A well-known type is recognized by its name, whether or not the model
resolves it; so it is the declaration of a type that makes it a wrapper, a sequence or neither. -/
namespace Wiring.SymbolModel

/-- By the declaration of its name, `t` is `wellKnown` applied to the type `a` and to nothing else.
A type that declares no definition is its own. -/
def Instantiates (m : SymbolModel) (types : List TypeDecl) (t : TypeRef) (wellKnown : String)
    (a : TypeRef) : Prop :=
  ∃ argument, (TypeDecl.find types t.name).typeArguments = [argument] ∧
    (TypeDecl.find types t.name).definition.getD t.name = wellKnown ∧
    m.typeRef? argument = some a

/-- What the declaration of `t` makes of it: a wrapper, else a sequence, else itself. -/
structure Classifies (m : SymbolModel) (types : List TypeDecl) (names : WellKnownNames)
    (t : TypeRef) (kind : DependencyKind) : Prop where
  deferred_iff : ∀ a, kind = .deferred a ↔ m.Instantiates types t names.lazy a
  collectionOf_iff : ∀ a, kind = .collectionOf a ↔
    (¬ ∃ b, m.Instantiates types t names.lazy b) ∧ m.Instantiates types t names.enumerable a
  plain_iff : ∀ u, kind = .plain u ↔ (¬ ∃ b, m.Instantiates types t names.lazy b) ∧
    (¬ ∃ b, m.Instantiates types t names.enumerable b) ∧ u = t

variable {m : SymbolModel} {d : ModelDocument} {calls : List InvocationDecl} {name : String}

theorem Instantiates.unique {types : List TypeDecl} {t a b : TypeRef} {wellKnown other : String}
    (h : m.Instantiates types t wellKnown a) (h' : m.Instantiates types t other b) : a = b := by
  obtain ⟨argument, hargument, _, ha⟩ := h
  obtain ⟨argument', hargument', _, hb⟩ := h'
  obtain rfl : argument = argument' := List.singleton_inj.mp (hargument.symm.trans hargument')
  exact Option.some.inj (ha.symm.trans hb)

theorem Represents.definition_mem_names {types : List TypeDecl} (h : m.Represents types)
    (hname : name ∈ m.names) : (TypeDecl.find types name).definition.getD name ∈ m.names := by
  cases hdefinition : (TypeDecl.find types name).definition with
  | none => exact hname
  | some definition => exact h.mem_names_of_find (TypeDecl.mem_mentioned_of_definition hdefinition)

theorem Holds.recognizes_definition (h : m.Holds d calls) (hname : name ∈ m.names)
    (wellKnown : String) :
    (KnownSymbol.resolve m wellKnown).recognizes (m.originalDefinition (m.handleOf name)) =
      ((TypeDecl.find d.types name).definition.getD name == wellKnown) := by
  rw [h.represents.originalDefinition_handleOf hname]
  exact h.recognizes_handleOf wellKnown (h.represents.definition_mem_names hname)

/-- Among attribute classes, a marker is found by its name. -/
theorem Holds.any_recognizes (h : m.Holds d calls) {classes : List String}
    (hclasses : ∀ name ∈ classes, name ∈ m.names) (marker : String) :
    (classes.map m.handleOf).any (KnownSymbol.resolve m marker).recognizes =
      classes.contains marker := by
  rw [List.any_map, List.contains_eq_any_beq, Bool.eq_iff_iff, List.any_eq_true, List.any_eq_true]
  refine exists_congr fun name => and_congr_right fun hname => ?_
  rw [Function.comp_apply, h.recognizes_handleOf marker (hclasses name hname), beq_iff_eq,
    beq_iff_eq, eq_comm]

section Classify

variable {names : WellKnownNames} {a : TypeRef}

/-- Of a type with one argument, the definition decides. -/
theorem Holds.classify_eq (h : m.Holds d calls) (hname : name ∈ m.names) {argument : String}
    (hargument : (TypeDecl.find d.types name).typeArguments = [argument]) :
    m.port.classify (.resolve m names) (m.handleOf name) =
      if (TypeDecl.find d.types name).definition.getD name = names.lazy then
        .deferred (m.handleOf argument)
      else if (TypeDecl.find d.types name).definition.getD name = names.enumerable then
        .collectionOf (m.handleOf argument)
      else .plain (m.handleOf name) := by
  have hlazy := h.recognizes_definition hname names.lazy
  have henumerable := h.recognizes_definition hname names.enumerable
  unfold SymbolPort.classify
  rw [port_genericArguments, h.represents.genericArguments_handleOf hname, hargument]
  simp only [KnownSymbols.resolve, List.map_cons, List.map_nil, port_originalDefinition, hlazy,
    henumerable, beq_iff_eq]

theorem Holds.typeRef?_argument (h : m.Holds d calls) {argument : String}
    (hargument : (TypeDecl.find d.types name).typeArguments = [argument]) :
    m.typeRef? argument = some (m.handleOf argument) :=
  h.represents.knows_handleOf (h.represents.mem_names_of_find
    (TypeDecl.mem_mentioned_of_argument (hargument ▸ List.mem_singleton_self argument)))

theorem Holds.classify_of_wrapper (h : m.Holds d calls) (hname : name ∈ m.names)
    (hwrapper : m.Instantiates d.types (m.handleOf name) names.lazy a) :
    m.port.classify (.resolve m names) (m.handleOf name) = .deferred a := by
  obtain ⟨argument, hargument, hdefinition, ha⟩ := hwrapper
  obtain rfl := Option.some.inj ((h.typeRef?_argument hargument).symm.trans ha)
  rw [h.classify_eq hname hargument]
  exact if_pos hdefinition

theorem Holds.classify_of_sequence (h : m.Holds d calls) (hname : name ∈ m.names)
    (hwrapper : ¬ ∃ b, m.Instantiates d.types (m.handleOf name) names.lazy b)
    (hsequence : m.Instantiates d.types (m.handleOf name) names.enumerable a) :
    m.port.classify (.resolve m names) (m.handleOf name) = .collectionOf a := by
  obtain ⟨argument, hargument, hdefinition, ha⟩ := hsequence
  have hlazy : (TypeDecl.find d.types name).definition.getD name ≠ names.lazy :=
    fun heq => hwrapper ⟨a, argument, hargument, heq, ha⟩
  obtain rfl := Option.some.inj ((h.typeRef?_argument hargument).symm.trans ha)
  rw [h.classify_eq hname hargument, if_neg hlazy]
  exact if_pos hdefinition

theorem Holds.classify_of_neither (h : m.Holds d calls) (hname : name ∈ m.names)
    (hwrapper : ¬ ∃ b, m.Instantiates d.types (m.handleOf name) names.lazy b)
    (hsequence : ¬ ∃ b, m.Instantiates d.types (m.handleOf name) names.enumerable b) :
    m.port.classify (.resolve m names) (m.handleOf name) = .plain (m.handleOf name) := by
  match hcase : (TypeDecl.find d.types name).typeArguments with
  | [argument] =>
    have hhandle := h.typeRef?_argument hcase
    have hlazy : (TypeDecl.find d.types name).definition.getD name ≠ names.lazy :=
      fun heq => hwrapper ⟨_, argument, hcase, heq, hhandle⟩
    have henumerable : (TypeDecl.find d.types name).definition.getD name ≠ names.enumerable :=
      fun heq => hsequence ⟨_, argument, hcase, heq, hhandle⟩
    rw [h.classify_eq hname hcase, if_neg hlazy, if_neg henumerable]
  | [] =>
    unfold SymbolPort.classify
    rw [port_genericArguments, h.represents.genericArguments_handleOf hname, hcase]
    rfl
  | _ :: _ :: _ =>
    unfold SymbolPort.classify
    rw [port_genericArguments, h.represents.genericArguments_handleOf hname, hcase]
    rfl

theorem Holds.classifies (h : m.Holds d calls) (names : WellKnownNames) (hname : name ∈ m.names) :
    m.Classifies d.types names (m.handleOf name)
      (m.port.classify (.resolve m names) (m.handleOf name)) := by
  by_cases hwrapper : ∃ b, m.Instantiates d.types (m.handleOf name) names.lazy b
  · obtain ⟨b, hb⟩ := hwrapper
    rw [h.classify_of_wrapper hname hb]
    exact {
      deferred_iff := fun a => ⟨fun heq => DependencyKind.deferred.inj heq ▸ hb,
        fun ha => congrArg DependencyKind.deferred (hb.unique ha)⟩
      collectionOf_iff := fun a => ⟨nofun, fun hcollection => absurd ⟨b, hb⟩ hcollection.1⟩
      plain_iff := fun u => ⟨nofun, fun hplain => absurd ⟨b, hb⟩ hplain.1⟩ }
  · by_cases hsequence : ∃ b, m.Instantiates d.types (m.handleOf name) names.enumerable b
    · obtain ⟨b, hb⟩ := hsequence
      rw [h.classify_of_sequence hname hwrapper hb]
      exact {
        deferred_iff := fun a => ⟨nofun, fun ha => absurd ⟨a, ha⟩ hwrapper⟩
        collectionOf_iff := fun a => ⟨
          fun heq => ⟨hwrapper, DependencyKind.collectionOf.inj heq ▸ hb⟩,
          fun ha => congrArg DependencyKind.collectionOf (hb.unique ha.2)⟩
        plain_iff := fun u => ⟨nofun, fun hplain => absurd ⟨b, hb⟩ hplain.2.1⟩ }
    · rw [h.classify_of_neither hname hwrapper hsequence]
      exact {
        deferred_iff := fun a => ⟨nofun, fun ha => absurd ⟨a, ha⟩ hwrapper⟩
        collectionOf_iff := fun a => ⟨nofun, fun ha => absurd ⟨a, ha.2⟩ hsequence⟩
        plain_iff := fun u => ⟨
          fun heq => ⟨hwrapper, hsequence, (DependencyKind.plain.inj heq).symm⟩,
          fun hplain => congrArg DependencyKind.plain hplain.2.2.symm⟩ }

end Classify

/-- A handle of a model is recognized as a well-known type exactly when it has that name, referenced
or not. Therefore a type is classified by its declaration: as a wrapper when it is an instance of
the wrapper definition for one type, otherwise as a sequence when it is one of the sequence
definition, and otherwise as itself. -/
theorem classified_by_declaration (d : ModelDocument) (calls : List InvocationDecl)
    (hfits : (d.names calls).toFinset.card ≤ UInt32.size) (bare : SymbolModel)
    (h : ofDocument d = .ok bare) :
    let m := ((calls.mapM invocationSite).run bare).2
    (∀ wellKnown t, m.typeRef? t.name = some t →
      ((KnownSymbol.resolve m wellKnown).recognizes t = true ↔ t.name = wellKnown)) ∧
    ∀ names t, m.typeRef? t.name = some t →
      m.Classifies d.types names t (m.port.classify (.resolve m names) t) := by
  intro m
  obtain ⟨hholds, _⟩ := holds_of_mapM_invocationSite hfits h
  refine ⟨fun wellKnown t ht => ?_, fun names t ht => ?_⟩
  · obtain ⟨hname, heq⟩ := hholds.represents.knows_iff.mp ht
    rw [heq, hholds.recognizes_handleOf wellKnown hname, beq_iff_eq]
    rfl
  · obtain ⟨hname, heq⟩ := hholds.represents.knows_iff.mp ht
    rw [heq]
    exact hholds.classifies names hname

/-- A wrapper whose definition is referenced, and a sequence whose definition is not. -/
def wrappedClocks : ModelDocument :=
  { references := ["System.Lazy`1"]
    types := [
      { name := "Test.LateClock"
        definition := some "System.Lazy`1"
        typeArguments := ["Test.Clock"] },
      { name := "Test.Clocks"
        definition := some "System.Collections.Generic.IEnumerable`1"
        typeArguments := ["Test.Clock"] }] }

/-- The wrapper is told by its identity and the sequence by its name, after a call is bound. -/
theorem classified_by_declaration_wrappedClocks :
    (wrappedClocks.names [serviceCall]).toFinset.card ≤ UInt32.size ∧
    ∃ bare, ofDocument wrappedClocks = .ok bare ∧
      let m := (([serviceCall].mapM invocationSite).run bare).2
      m.typeRef? "Test.LateClock" = some ⟨0, "Test.LateClock"⟩ ∧
      m.typeRef? "Test.Clocks" = some ⟨1, "Test.Clocks"⟩ ∧
      m.port.classify (.resolve m {}) ⟨0, "Test.LateClock"⟩ = .deferred ⟨3, "Test.Clock"⟩ ∧
      m.port.classify (.resolve m {}) ⟨1, "Test.Clocks"⟩ = .collectionOf ⟨3, "Test.Clock"⟩ := by
  have hfits : (wrappedClocks.names [serviceCall]).toFinset.card ≤ UInt32.size := by decide +kernel
  have hhandles : (ofDocument wrappedClocks).toOption.map (fun bare =>
      ["Test.LateClock", "Test.Clocks", "Test.Clock"].map
        (([serviceCall].mapM invocationSite).run bare).2.typeRef?) =
      some [some ⟨0, "Test.LateClock"⟩, some ⟨1, "Test.Clocks"⟩, some ⟨3, "Test.Clock"⟩] := by
    decide +kernel
  cases h : ofDocument wrappedClocks with
  | error failure =>
    rw [h] at hhandles
    contradiction
  | ok bare =>
    rw [h] at hhandles
    obtain ⟨hlate, hclocks, hclock⟩ : _ ∧ _ ∧ _ := by
      simpa [Except.toOption] using hhandles
    obtain ⟨_, hclassifies⟩ := classified_by_declaration wrappedClocks [serviceCall] hfits bare h
    refine ⟨hfits, bare, rfl, hlate, hclocks, ?_, ?_⟩
    · exact ((hclassifies {} ⟨0, "Test.LateClock"⟩ hlate).deferred_iff _).mpr
        ⟨"Test.Clock", rfl, rfl, hclock⟩
    · refine ((hclassifies {} ⟨1, "Test.Clocks"⟩ hclocks).collectionOf_iff _).mpr
        ⟨?_, "Test.Clock", rfl, rfl, hclock⟩
      rintro ⟨_, _, _, hdefinition, _⟩
      exact absurd hdefinition (by decide +kernel)

end Wiring.SymbolModel
