import Wiring.Proofs.Model.Ancestry
import Wiring.Proofs.Model.Loading

/-! What stays when an arena grows. Binding a call adds bare types for names that are new; whatever
the model has answered about a name or a handle before, it answers again. -/
namespace Wiring.SymbolModel

variable {m later : SymbolModel} {fresh : List String} {t : TypeRef} {entry : TypeEntry}
variable {name : String} {id : SymbolId}

section Known

/-- The later model answers about `t` what `m` answers. -/
structure SameAnswers (m later : SymbolModel) (t : TypeRef) : Prop where
  constructors : later.constructors t = m.constructors t
  properties : later.properties t = m.properties t
  basesAndSelf : later.basesAndSelf t = m.basesAndSelf t
  attributes : ∀ member : MemberRef, member.owner = t →
    later.attributes member = m.attributes member
  accessibility : ∀ member : MemberRef, member.owner = t →
    later.accessibility member = m.accessibility member
  genericArguments : later.genericArguments t = m.genericArguments t
  originalDefinition : later.originalDefinition t = m.originalDefinition t

theorem Extends.entryAt?_eq (h : m.Extends fresh later) (hlt : id.toNat < m.size) :
    later.entryAt? id = m.entryAt? id := by
  have hentry : m.types[id.toNat]? = some m.types[id.toNat] := Array.getElem?_eq_getElem hlt
  exact (h.getElem?_types hentry).trans hentry.symm

theorem Extends.handle?_eq (h : m.Extends fresh later) (hlt : id.toNat < m.size) :
    later.handle? id = m.handle? id := by
  rw [handle?, handle?, h.entryAt?_eq hlt]

theorem Extends.entry?_eq (h : m.Extends fresh later) (hentry : m.entry? t = some entry) :
    later.entry? t = some entry := by
  obtain ⟨hat, hname⟩ := entry?_eq_some_iff.mp hentry
  exact entry?_eq_some_iff.mpr ⟨h.getElem?_types hat, hname⟩

theorem Extends.climbs (h : m.Extends fresh later) {next : Option SymbolId} {chain : List TypeRef}
    (hclimbs : m.Climbs next chain) : later.Climbs next chain := by
  induction hclimbs with
  | root => exact .root
  | step hentry _ ih => exact .step (h.getElem?_types hentry) ih

theorem InRange.inRange_entry (h : m.InRange) (hentry : m.entry? t = some entry) :
    entry.InRange m.declared m.size :=
  h.entries t.id.toNat entry (entry?_eq_some_iff.mp hentry).1

/-- The entry of a type is all that is asked for, and the handles in it are places of the arena. -/
theorem InRange.sameAnswers (h : m.InRange) (hacyclic : m.Acyclic) (hextends : m.Extends fresh later)
    (hentry : m.entry? t = some entry) : m.SameAnswers later t := by
  have hrange : entry.InRange m.declared m.size := h.inRange_entry hentry
  have hlater : later.entry? t = some entry := hextends.entry?_eq hentry
  have hsame : later.entry? t = m.entry? t := hlater.trans hentry.symm
  have hconstructor : later.constructorEntry? t = m.constructorEntry? t := by
    funext ordinal
    unfold constructorEntry?
    rw [hsame]
  have hproperty : later.propertyEntry? t = m.propertyEntry? t := by
    funext name
    unfold propertyEntry?
    rw [hsame]
  constructor
  case constructors => simp only [constructors, hsame]
  case properties => simp only [properties, hsame]
  case basesAndSelf =>
    obtain ⟨chain, hclimbs, hlength⟩ := h.exists_climbs hacyclic hentry
    rw [basesAndSelf_eq hentry hclimbs hlength,
      basesAndSelf_eq hlater (hextends.climbs hclimbs) (hlength.trans hextends.size_le)]
  case attributes =>
    intro member howner
    cases member with
    | constructor owner ordinal =>
      obtain rfl : owner = t := howner
      simp only [attributes, hconstructor]
    | property owner name =>
      obtain rfl : owner = t := howner
      simp only [attributes, hproperty]
    | propertySetter => rfl
  case accessibility =>
    intro member howner
    cases member with
    | constructor owner ordinal =>
      obtain rfl : owner = t := howner
      simp only [accessibility, hconstructor]
    | property owner name =>
      obtain rfl : owner = t := howner
      simp only [accessibility, hproperty]
    | propertySetter owner name =>
      obtain rfl : owner = t := howner
      simp only [accessibility, hproperty]
  case genericArguments =>
    simp only [genericArguments, hentry, hlater]
    exact List.filterMap_congr fun id hid => hextends.handle?_eq (hrange.typeArguments_lt id hid)
  case originalDefinition =>
    simp only [originalDefinition, hentry, hlater, Option.bind_some]
    cases hdefinition : entry.definition with
    | none => rfl
    | some id =>
      simp only [Option.bind_some, hextends.handle?_eq (hrange.definition_lt id hdefinition)]

end Known

section Names

theorem Indexed.isSome_typeRef?_iff (h : m.Indexed) :
    (m.typeRef? name).isSome = true ↔ name ∈ m.names := by
  constructor
  · intro hknown
    obtain ⟨t, ht⟩ := Option.isSome_iff_exists.mp hknown
    obtain ⟨id, hid, _⟩ := Option.bind_eq_some_iff.mp ht
    exact h.mem_names_iff.mpr ⟨id, hid⟩
  · intro hname
    have hat : m.entryAt? (m.ids name) = some _ := Array.getElem?_eq_getElem (h.ids_lt hname)
    rw [typeRef?, h.idOf?_of_mem hname, Option.bind_some, handle?, hat]
    rfl

theorem Extends.typeRef?_eq (h : m.Extends fresh later) (hm : m.Indexed) (hname : name ∈ m.names) :
    later.typeRef? name = m.typeRef? name := by
  have hid : m.idOf? name = some (m.ids name) := hm.idOf?_of_mem hname
  rw [typeRef?, typeRef?, h.grown.idOf?_eq hm hid, hid]
  exact h.handle?_eq (hm.ids_lt hname)

theorem Extends.resolveWellKnown?_eq (h : m.Extends fresh later) (hm : m.Indexed)
    (hname : name ∈ m.names) : later.resolveWellKnown? name = m.resolveWellKnown? name := by
  have hid : m.idOf? name = some (m.ids name) := hm.idOf?_of_mem hname
  rw [resolveWellKnown?, resolveWellKnown?, h.grown.idOf?_eq hm hid, hid, h.references_eq,
    Option.filter_some]
  split
  · exact h.handle?_eq (hm.ids_lt hname)
  · rfl

/-- A handle that the model came to hold is that of a name that it came to know. -/
theorem Extends.mem_fresh_of_entry? (h : m.Extends fresh later) (hnone : m.entry? t = none)
    (hentry : later.entry? t = some entry) : t.name ∈ fresh := by
  obtain ⟨hat, hname⟩ := entry?_eq_some_iff.mp hentry
  rcases h.of_getElem?_types hat with hold | ⟨name, hfresh, rfl⟩
  · rw [entry?_eq_some_iff.mpr ⟨hold, hname⟩] at hnone
    contradiction
  · exact hname ▸ hfresh

theorem Indexed.meetAll_of_subset (h : m.Indexed) {mentioned : List String}
    (hheld : mentioned ⊆ m.names) : m.meetAll mentioned = m := by
  induction mentioned with
  | nil => rfl
  | cons name rest ih =>
    obtain ⟨hname, hrest⟩ := List.cons_subset.mp hheld
    rw [meetAll_cons, h.meet_of_mem hname, ih hrest]

/-- Run again, at any later time, an action gives what it gave and meets nothing new. -/
theorem Interns.run_later {α : Type} {action : StateM SymbolModel α} {mentioned : List String}
    {value : (String → SymbolId) → α} (h : Interns action mentioned value) (hm : m.Indexed)
    (hlater : (action.run m).2.Grown later) : action.run later = ((action.run m).1, later) := by
  rw [h.state_eq m] at hlater
  have hheld : mentioned ⊆ later.names := fun name hname =>
    hlater.names_prefix.subset ((hm.mem_names_meetAll_iff mentioned).mpr (.inr hname))
  have hsame : later.meetAll mentioned = later := hlater.indexed.meetAll_of_subset hheld
  refine Prod.ext ?_ ((h.state_eq later).trans hsame)
  have hagain := h.value_eq later later hlater.indexed (hsame.symm ▸ .refl hlater.indexed)
  exact hagain.trans (h.value_eq m later hm hlater).symm

end Names

section Calls

variable {d : ModelDocument} {calls : List InvocationDecl}

theorem run_mapM_invocationSite_singleton (m : SymbolModel) (call : InvocationDecl) :
    (([call].mapM invocationSite).run m).2 = ((invocationSite call).run m).2 := by
  rw [(Interns.mapM interns_invocationSite [call]).state_eq m,
    (interns_invocationSite call).state_eq m, List.flatMap_singleton]

theorem Holds.resolveWellKnown?_invocationSite (h : m.Holds d calls) (call : InvocationDecl)
    (hfits : (d.names (calls ++ [call])).toFinset.card ≤ UInt32.size) (name : String) :
    ((invocationSite call).run m).2.resolveWellKnown? name = m.resolveWellKnown? name := by
  obtain ⟨hlater, _⟩ := h.invocationSites [call] hfits
  have hgrown := h.represents.indexed.grown_invocationSites [call]
  rw [run_mapM_invocationSite_singleton] at hlater hgrown
  rw [hlater.resolveWellKnown?_eq, h.resolveWellKnown?_eq]
  split
  · rename_i hname
    rw [hgrown.handleOf_eq h.represents.indexed (h.mem_names_of_reference hname)]
  · rfl

end Calls

/-- Binding one more call changes no answer. A handle that the model holds has the answers it had;
names that are known keep their handles, well-known ones among them; the names that come to be known
are the type arguments of the call that were not, and only they get handles; and the call bound
again, at any later time, gives the same site and leaves the model as it is. A name that was never
met is no well-known one afterwards either, unless identities run out. -/
theorem answers_kept_of_invocationSite (d : ModelDocument) (calls : List InvocationDecl)
    (bare : SymbolModel) (h : ofDocument d = .ok bare) (call : InvocationDecl) :
    let m := ((calls.mapM invocationSite).run bare).2
    let site := ((invocationSite call).run m).1
    let later := ((invocationSite call).run m).2
    (∀ t, (m.entry? t).isSome = true → m.SameAnswers later t) ∧
    (∀ name, (m.typeRef? name).isSome = true →
      later.typeRef? name = m.typeRef? name ∧
        later.resolveWellKnown? name = m.resolveWellKnown? name) ∧
    ((d.names (calls ++ [call])).toFinset.card ≤ UInt32.size →
      ∀ name, later.resolveWellKnown? name = m.resolveWellKnown? name) ∧
    (∀ name, (later.typeRef? name).isSome = true ↔
      (m.typeRef? name).isSome = true ∨ name ∈ call.typeArguments) ∧
    (∀ t, m.entry? t = none → (later.entry? t).isSome = true →
      t.name ∈ call.typeArguments ∧ m.typeRef? t.name = none) ∧
    (∀ more : List InvocationDecl,
      let last := ((more.mapM invocationSite).run later).2
      (invocationSite call).run last = (site, last)) := by
  intro m site later
  obtain ⟨hrange, hacyclic⟩ := inRange_acyclic_of_invocationSites h calls
  have hindexed : m.Indexed := hrange.indexed
  obtain ⟨fresh, hextends, hfresh⟩ := hindexed.exists_extends_invocationSites [call]
  rw [run_mapM_invocationSite_singleton] at hextends
  rw [List.flatMap_singleton] at hfresh
  have hnew : ∀ name, name ∈ fresh ↔ name ∈ call.typeArguments ∧ m.typeRef? name = none := by
    intro name
    rw [hfresh, ← hindexed.isSome_typeRef?_iff, Bool.not_eq_true, Option.isSome_eq_false_iff,
      Option.isNone_iff_eq_none]
  refine ⟨fun t hheld => ?_, fun name hknown => ?_, fun hfits => ?_, fun name => ?_,
    fun t hnone hheld => ?_, fun more => ?_⟩
  · obtain ⟨entry, hentry⟩ := Option.isSome_iff_exists.mp hheld
    exact hrange.sameAnswers hacyclic hextends hentry
  · have hname : name ∈ m.names := hindexed.isSome_typeRef?_iff.mp hknown
    exact ⟨hextends.typeRef?_eq hindexed hname, hextends.resolveWellKnown?_eq hindexed hname⟩
  · have hbefore : (d.names calls).toFinset.card ≤ UInt32.size :=
      (d.card_names_le (List.subset_append_left calls [call])).trans hfits
    obtain ⟨hholds, _⟩ := holds_of_mapM_invocationSite hbefore h
    exact hholds.resolveWellKnown?_invocationSite call hfits
  · rw [hextends.indexed.isSome_typeRef?_iff, hextends.names_eq, List.mem_append, hfresh,
      hindexed.isSome_typeRef?_iff]
    tauto
  · obtain ⟨entry, hentry⟩ := Option.isSome_iff_exists.mp hheld
    exact (hnew t.name).mp (hextends.mem_fresh_of_entry? hnone hentry)
  · have hgrown : later.Grown ((more.mapM invocationSite).run later).2 :=
      hextends.indexed.grown_invocationSites more
    exact (interns_invocationSite call).run_later hindexed hgrown

/-- The interface of the call is new to the model; the service, its base and the well-known wrapper
are where they were. -/
theorem answers_kept_of_invocationSite_lazyClock :
    (lazyClock.names [serviceCall]).toFinset.card ≤ UInt32.size ∧
    ∃ bare, ofDocument lazyClock = .ok bare ∧
      let later := ((invocationSite serviceCall).run bare).2
      later.basesAndSelf ⟨1, "Test.Service"⟩ = [⟨1, "Test.Service"⟩, ⟨0, "Test.Clock"⟩] ∧
      later.resolveWellKnown? "System.Lazy`1" = some ⟨4, "System.Lazy`1"⟩ ∧
      later.resolveWellKnown? "Test.IService" = none ∧
      bare.typeRef? "Test.IService" = none ∧
      (later.typeRef? "Test.IService").isSome = true ∧
      ((invocationSite serviceCall).run later).2 = later := by
  have hfits : (lazyClock.names [serviceCall]).toFinset.card ≤ UInt32.size := by decide +kernel
  have hanswers : (ofDocument lazyClock).toOption.map (fun bare =>
      ((bare.entry? ⟨1, "Test.Service"⟩).isSome, bare.basesAndSelf ⟨1, "Test.Service"⟩,
        bare.resolveWellKnown? "System.Lazy`1", bare.resolveWellKnown? "Test.IService",
        bare.typeRef? "Test.IService")) =
      some (true, [⟨1, "Test.Service"⟩, ⟨0, "Test.Clock"⟩], some ⟨4, "System.Lazy`1"⟩, none,
        none) := by
    decide +kernel
  cases h : ofDocument lazyClock with
  | error failure =>
    rw [h] at hanswers
    contradiction
  | ok bare =>
    rw [h] at hanswers
    simp only [Except.toOption, Option.map_some, Option.some.injEq, Prod.mk.injEq] at hanswers
    obtain ⟨hheld, hlevels, hwrapper, hinterface, hunknown⟩ := hanswers
    obtain ⟨hsame, _, hwellKnown, hknown, _, hagain⟩ :=
      answers_kept_of_invocationSite lazyClock [] bare h serviceCall
    exact ⟨hfits, bare, rfl, (hsame _ hheld).basesAndSelf.trans hlevels,
      (hwellKnown hfits _).trans hwrapper, (hwellKnown hfits _).trans hinterface, hunknown,
      (hknown _).mpr (.inr List.mem_cons_self), congrArg Prod.snd (hagain [])⟩

end Wiring.SymbolModel
