import Wiring.Proofs.Model.Answers

/-! The arena of a model in use. References and call sites only add bare types at its end, so it
goes on representing the declarations; and every handle that it ever gives out is the one it gives
for the name of the type. -/
namespace Wiring

/-- Every name of a type in a document, and in calls that are bound to its model. -/
def ModelDocument.names (d : ModelDocument) (calls : List InvocationDecl) : List String :=
  d.types.flatMap TypeDecl.names ++ d.references ++ calls.flatMap InvocationDecl.typeArguments

/-- Fewer calls need no more identities. -/
theorem ModelDocument.card_names_le (d : ModelDocument) {calls calls' : List InvocationDecl}
    (h : calls ⊆ calls') : (d.names calls).toFinset.card ≤ (d.names calls').toFinset.card := by
  refine Finset.card_le_card fun name hname => List.mem_toFinset.mpr ?_
  rcases List.mem_append.mp (List.mem_toFinset.mp hname) with hdocument | hcalls
  · exact List.mem_append_left _ hdocument
  · obtain ⟨call, hcall, hmem⟩ := List.mem_flatMap.mp hcalls
    exact List.mem_append_right _ (List.mem_flatMap.mpr ⟨call, h hcall, hmem⟩)

theorem ModelDocument.card_flatMap_names_le (d : ModelDocument) {calls : List InvocationDecl} :
    (d.types.flatMap TypeDecl.names).toFinset.card ≤ (d.names calls).toFinset.card := by
  refine Finset.card_le_card fun name hname => List.mem_toFinset.mpr ?_
  exact List.mem_append_left _ (List.mem_append_left _ (List.mem_toFinset.mp hname))

namespace SymbolModel

variable {m : SymbolModel}

section References

/-- The model with other well-known types. -/
def withReferences (m : SymbolModel) (references : List SymbolId) : SymbolModel :=
  { m with references }

theorem Indexed.withReferences (h : m.Indexed) (references : List SymbolId) :
    (m.withReferences references).Indexed :=
  ⟨h.index_eq, h.nodup⟩

theorem meet_withReferences (m : SymbolModel) (references : List SymbolId) (name : String) :
    (m.withReferences references).meet name = (m.meet name).withReferences references := by
  have hindex : (m.withReferences references).idOf? name = m.idOf? name := rfl
  unfold meet
  cases hid : m.idOf? name with
  | some id =>
    rw [run_intern_of_some hid, run_intern_of_some (hindex.trans hid)]
  | none =>
    rw [run_intern_of_none hid, run_intern_of_none (hindex.trans hid)]
    rfl

theorem meetAll_withReferences (m : SymbolModel) (references : List SymbolId)
    (mentioned : List String) :
    (m.withReferences references).meetAll mentioned =
      (m.meetAll mentioned).withReferences references := by
  induction mentioned generalizing m with
  | nil => rfl
  | cons name rest ih => rw [meetAll_cons, meetAll_cons, meet_withReferences, ih]

theorem run_refer (h : m.Indexed) (name : String) :
    ((refer name).run m).2 =
      (m.meet name).withReferences ((m.meet name).ids name :: m.references) := by
  have hinterns := Interns.intern name
  have hid : ((intern name).run m).1 = (m.meet name).ids name :=
    hinterns.value_eq m (m.meet name) h (.refl (h.meetAll [name]))
  obtain ⟨_, hextends, _⟩ := h.exists_extends_meetAll [name]
  have hreferences : ((intern name).run m).2.references = m.references := hextends.references_eq
  change ((intern name).run m).2.withReferences
    (((intern name).run m).1 :: ((intern name).run m).2.references) = _
  rw [hid, hreferences]
  rfl

/-- Referring to names meets them and remembers their identities. -/
theorem run_forM_refer (h : m.Indexed) (referred : List String) :
    ((referred.forM refer).run m).2 = (m.meetAll referred).withReferences
      ((referred.map (m.meetAll referred).ids).reverse ++ m.references) := by
  induction referred generalizing m with
  | nil => rfl
  | cons name rest ih =>
    have hmeet : (m.meet name).Indexed := h.meetAll [name]
    have hname : name ∈ (m.meet name).names :=
      (h.mem_names_meetAll_iff [name]).mpr (.inr (List.mem_singleton_self name))
    have hid : ((m.meet name).meetAll rest).ids name = (m.meet name).ids name :=
      (hmeet.grown_meetAll rest).ids_eq hmeet (hmeet.idOf?_of_mem hname)
    have hstep : (((name :: rest).forM refer).run m).2 =
        ((rest.forM refer).run ((refer name).run m).2).2 := rfl
    rw [hstep, run_refer h, ih (hmeet.withReferences _), meetAll_withReferences, meetAll_cons,
      List.map_cons, List.reverse_cons, List.append_assoc, hid]
    rfl

end References

theorem Represents.withReferences {types : List TypeDecl} (h : m.Represents types)
    (references : List SymbolId) : (m.withReferences references).Represents types where
  indexed := h.indexed.withReferences references
  fits := h.fits
  declared_eq := h.declared_eq
  names_prefix := h.names_prefix
  mentioned := h.mentioned
  bases := h.bases
  reads := h.reads.of_types_eq rfl

/-- The model of a document, after the sites of calls have been bound to it. -/
structure Holds (d : ModelDocument) (calls : List InvocationDecl) (m : SymbolModel) : Prop where
  represents : m.Represents d.types
  acyclic : m.Acyclic
  mem_references_iff : ∀ id, id ∈ m.references ↔ ∃ name ∈ d.references, id = m.ids name
  mem_names_iff : ∀ name, name ∈ m.names ↔ name ∈ d.names calls

variable {d : ModelDocument}

theorem Holds.mem_names_of_reference {calls : List InvocationDecl} (h : m.Holds d calls)
    {name : String} (hname : name ∈ d.references) : name ∈ m.names :=
  (h.mem_names_iff name).mpr (List.mem_append_left _ (List.mem_append_right _ hname))

theorem Holds.mem_names_of_typeArguments {calls : List InvocationDecl} (h : m.Holds d calls)
    {call : InvocationDecl} (hcall : call ∈ calls) {name : String}
    (hname : name ∈ call.typeArguments) : name ∈ m.names :=
  (h.mem_names_iff name).mpr (List.mem_append_right _ (List.mem_flatMap.mpr ⟨call, hcall, hname⟩))

/-- All declared types filled in, the arena holds the names that stand in the declarations. -/
theorem Filling.mem_names_iff_mem_flatMap {types : List TypeDecl} (h : Filling types types m)
    (hrepresents : m.Represents types) (name : String) :
    name ∈ m.names ↔ name ∈ types.flatMap TypeDecl.names := by
  constructor
  · intro hmem
    rcases (h.mem_names_iff name).mp hmem with hdeclared | hmentioned
    · obtain ⟨type, htype, rfl⟩ := List.mem_map.mp hdeclared
      exact List.mem_flatMap.mpr ⟨type, htype, List.mem_cons_self⟩
    · obtain ⟨type, htype, hname⟩ := List.mem_flatMap.mp hmentioned
      exact List.mem_flatMap.mpr ⟨type, htype, List.mem_append_right _ hname⟩
  · intro hmem
    obtain ⟨type, htype, hname⟩ := List.mem_flatMap.mp hmem
    exact hrepresents.mem_names htype hname

theorem holds_of_ofDocument (hfits : (d.names []).toFinset.card ≤ UInt32.size)
    (h : ofDocument d = .ok m) : m.Holds d [] := by
  have hdeclared : (d.types.flatMap TypeDecl.names).toFinset.card ≤ UInt32.size :=
    d.card_flatMap_names_le.trans hfits
  have hwell : TypeDecl.WellFormed d.types := wellFormed_of_ofDocument hdeclared h
  obtain ⟨filled, hrepresents, hfilling, hdocument⟩ := exists_ofDocument_eq_ok hdeclared hwell
  have hindexed : filled.Indexed := hfilling.indexed
  obtain ⟨fresh, hextends, _⟩ := hindexed.exists_extends_meetAll d.references
  obtain rfl : _ = m := Except.ok.inj (hdocument.symm.trans h)
  rw [run_forM_refer hindexed]
  have hnames : ∀ name, name ∈ (filled.meetAll d.references).names ↔ name ∈ d.names [] := by
    intro name
    rw [hindexed.mem_names_meetAll_iff, hfilling.mem_names_iff_mem_flatMap hrepresents]
    simp [ModelDocument.names]
  have hsize : (filled.meetAll d.references).size ≤ UInt32.size :=
    (hextends.indexed.size_le fun name => (hnames name).mp).trans hfits
  have hmet : (filled.meetAll d.references).Represents d.types := hrepresents.extend hextends hsize
  have hlast := hmet.withReferences
    ((d.references.map (filled.meetAll d.references).ids).reverse ++ filled.references)
  exact {
    represents := hlast
    acyclic := hlast.acyclic_iff.mpr hwell.acyclic
    mem_references_iff := fun id => by
      change id ∈ (d.references.map (filled.meetAll d.references).ids).reverse ++
        filled.references ↔ ∃ name ∈ d.references, id = (filled.meetAll d.references).ids name
      rw [hfilling.references_eq]
      simp [eq_comm]
    mem_names_iff := hnames }

/-- Binding calls to a model keeps what it holds, and their sites have its handles. -/
theorem Holds.invocationSites {calls : List InvocationDecl} (h : m.Holds d calls)
    (more : List InvocationDecl) (hfits : (d.names (calls ++ more)).toFinset.card ≤ UInt32.size) :
    Holds d (calls ++ more) ((more.mapM invocationSite).run m).2 ∧
      ((more.mapM invocationSite).run m).1 =
        more.map (InvocationDecl.read ((more.mapM invocationSite).run m).2.ids) := by
  have hinterns := Interns.mapM interns_invocationSite more
  have hindexed : m.Indexed := h.represents.indexed
  let mentioned : List String := more.flatMap InvocationDecl.typeArguments
  obtain ⟨fresh, hextends, _⟩ := hindexed.exists_extends_meetAll mentioned
  have hnames : ∀ name, name ∈ (m.meetAll mentioned).names ↔ name ∈ d.names (calls ++ more) := by
    intro name
    rw [hindexed.mem_names_meetAll_iff, h.mem_names_iff]
    simp [ModelDocument.names, mentioned, or_assoc]
  have hsize : (m.meetAll mentioned).size ≤ UInt32.size :=
    (hextends.indexed.size_le fun name => (hnames name).mp).trans hfits
  have hmet : (m.meetAll mentioned).Represents d.types := h.represents.extend hextends hsize
  rw [hinterns.value_eq m (m.meetAll mentioned) hindexed (.refl hextends.indexed),
    hinterns.state_eq m]
  refine ⟨?_, rfl⟩
  exact {
    represents := hmet
    acyclic := hmet.acyclic_iff.mpr (h.represents.acyclic_iff.mp h.acyclic)
    mem_references_iff := fun id => by
      have hsame : ∀ name ∈ d.references, (m.meetAll mentioned).ids name = m.ids name :=
        fun name hname => hextends.grown.ids_eq hindexed
          (hindexed.idOf?_of_mem (h.mem_names_of_reference hname))
      rw [hextends.references_eq, h.mem_references_iff]
      constructor
      · rintro ⟨name, hname, rfl⟩
        exact ⟨name, hname, (hsame name hname).symm⟩
      · rintro ⟨name, hname, rfl⟩
        exact ⟨name, hname, hsame name hname⟩
    mem_names_iff := hnames }

theorem Holds.resolveWellKnown?_eq {calls : List InvocationDecl} (h : m.Holds d calls)
    (name : String) :
    m.resolveWellKnown? name = if name ∈ d.references then some (m.handleOf name) else none := by
  unfold resolveWellKnown?
  by_cases hname : name ∈ m.names
  · rw [h.represents.indexed.idOf?_of_mem hname, Option.filter_some]
    have hreferred : m.references.contains (m.ids name) = true ↔ name ∈ d.references := by
      rw [List.contains_iff_mem, h.mem_references_iff]
      constructor
      · rintro ⟨other, hother, heq⟩
        rwa [h.represents.ids_injective hname (h.mem_names_of_reference hother) heq]
      · exact fun hmem => ⟨name, hmem, rfl⟩
    by_cases hmem : name ∈ d.references
    · rw [if_pos (hreferred.mpr hmem), if_pos hmem]
      exact h.represents.handle?_ids hname
    · rw [if_neg (hmem ∘ hreferred.mp), if_neg hmem]
      rfl
  · rw [h.represents.indexed.idOf?_eq_none_iff.mpr hname, if_neg (hname ∘ h.mem_names_of_reference)]
    rfl

/-- The arena of a model, its index and its handles agree with each other and with the names in the
document and in the calls bound so far. -/
structure Consistent (m : SymbolModel) (d : ModelDocument) (calls : List InvocationDecl)
    (sites : List InvocationSite) : Prop where
  /-- The index and the arena are inverse. -/
  idOf?_eq_some_iff : ∀ name id,
    m.idOf? name = some id ↔ ∃ entry, m.entryAt? id = some entry ∧ entry.name = name
  /-- A name has one identity. -/
  index_nodup : (m.index.map Prod.fst).Nodup
  /-- A name has one entry. -/
  names_nodup : (m.types.toList.map TypeEntry.name).Nodup
  declared_eq : m.declared = d.types.length
  /-- Declared types come first, in declaration order. -/
  typeRef?_declared : ∀ (position : Nat) (type : TypeDecl), d.types[position]? = some type →
    ∃ id : SymbolId, id.toNat = position ∧ m.typeRef? type.name = some ⟨id, type.name⟩
  size_eq : m.size = (d.names calls).toFinset.card
  base_lt : ∀ entry ∈ m.types, ∀ id, entry.base = some id → id.toNat < m.size
  definition_lt : ∀ entry ∈ m.types, ∀ id, entry.definition = some id → id.toNat < m.size
  typeArguments_lt : ∀ entry ∈ m.types, ∀ id ∈ entry.typeArguments, id.toNat < m.size
  references_lt : ∀ id ∈ m.references, id.toNat < m.size
  knows_typeRef? : ∀ name t, m.typeRef? name = some t → m.Knows t
  knows_constructors : ∀ t, ∀ c ∈ m.constructors t,
    m.Knows c.member.owner ∧ ∀ p ∈ c.parameters, m.Knows p.type
  knows_properties : ∀ t, ∀ p ∈ m.properties t, m.Knows p.owner ∧ m.Knows p.type
  knows_attributes : ∀ member, ∀ a ∈ m.attributes member, m.Knows a
  knows_basesAndSelf : ∀ t, m.Knows t → ∀ base ∈ m.basesAndSelf t, m.Knows base
  knows_genericArguments : ∀ t, ∀ argument ∈ m.genericArguments t, m.Knows argument
  knows_originalDefinition : ∀ t, m.Knows t → m.Knows (m.originalDefinition t)
  knows_resolveWellKnown? : ∀ name t, m.resolveWellKnown? name = some t → m.Knows t
  knows_sites : ∀ site ∈ sites, ∀ t ∈ site.typeArguments, m.Knows t

namespace Represents

variable {types : List TypeDecl}

theorem exists_eq_read (h : m.Represents types) {entry : TypeEntry} (hmem : entry ∈ m.types) :
    entry = (TypeDecl.find types entry.name).read m.ids := by
  obtain ⟨position, hentry⟩ := Array.mem_iff_getElem?.mp hmem
  exact h.entry_eq hentry

theorem knows_constructors (h : m.Represents types) (hacyclic : m.Acyclic) {t : TypeRef}
    {c : ConstructorCandidate} (hc : c ∈ m.constructors t) :
    m.Knows c.member.owner ∧ ∀ p ∈ c.parameters, m.Knows p.type := by
  have hclosed : m.port.Closed m.Knows := h.closed_knows hacyclic
  rcases h.knows_or_entry?_eq_none t with ht | hnone
  · exact ⟨hclosed.owner_constructors t ht c hc, hclosed.type_constructors t ht c hc⟩
  · simp [constructors, hnone] at hc

theorem knows_properties (h : m.Represents types) (hacyclic : m.Acyclic) {t : TypeRef}
    {p : PropertyCandidate} (hp : p ∈ m.properties t) : m.Knows p.owner ∧ m.Knows p.type := by
  have hclosed : m.port.Closed m.Knows := h.closed_knows hacyclic
  rcases h.knows_or_entry?_eq_none t with ht | hnone
  · exact ⟨hclosed.owner_properties t ht p hp, hclosed.type_properties t ht p hp⟩
  · simp [properties, hnone] at hp

theorem knows_attributes (h : m.Represents types) (hacyclic : m.Acyclic) {member : MemberRef}
    {a : TypeRef} (ha : a ∈ m.attributes member) : m.Knows a := by
  rcases h.knows_or_entry?_eq_none member.owner with howner | hnone
  · exact (h.closed_knows hacyclic).attributes member howner a ha
  · cases member <;> simp_all [attributes, constructorEntry?, propertyEntry?, MemberRef.owner]

theorem knows_genericArguments (h : m.Represents types) (hacyclic : m.Acyclic)
    {t argument : TypeRef} (hargument : argument ∈ m.genericArguments t) : m.Knows argument := by
  rcases h.knows_or_entry?_eq_none t with ht | hnone
  · exact (h.closed_knows hacyclic).genericArguments t ht argument hargument
  · simp [genericArguments, hnone] at hargument

end Represents

theorem map_fst_identities (names : List String) :
    (identities names).map Prod.fst = names.reverse := by
  simp [identities, List.map_reverse, Function.comp_def]

theorem Holds.consistent {calls : List InvocationDecl} (h : m.Holds d calls) :
    m.Consistent d calls (calls.map (InvocationDecl.read m.ids)) := by
  have hrepresents : m.Represents d.types := h.represents
  have hindexed : m.Indexed := hrepresents.indexed
  have hclosed : m.port.Closed m.Knows := hrepresents.closed_knows h.acyclic
  exact {
    idOf?_eq_some_iff := fun _ _ => hrepresents.idOf?_eq_some_iff
    index_nodup := by
      rw [hindexed.index_eq, map_fst_identities]
      exact List.nodup_reverse.mpr hindexed.nodup
    names_nodup := hindexed.nodup
    declared_eq := hrepresents.declared_eq
    typeRef?_declared := fun position type htype => by
      have hname : (d.types.map TypeDecl.name)[position]? = some type.name := by
        rw [List.getElem?_map, htype]
        rfl
      obtain ⟨hlt, hget⟩ := List.getElem?_eq_some_iff.mp hname
      have hplace : m.names[position]? = some type.name := by
        rw [List.prefix_iff_getElem?.mp hrepresents.names_prefix position hlt, hget]
      exact ⟨m.ids type.name, hindexed.toNat_ids hrepresents.fits hplace,
        hrepresents.knows_handleOf (List.mem_of_getElem? hplace)⟩
    size_eq := by
      rw [← length_names, ← List.toFinset_card_of_nodup hindexed.nodup]
      congr 1
      ext name
      rw [List.mem_toFinset, List.mem_toFinset, h.mem_names_iff]
    base_lt := fun entry hentry id hid => by
      rw [hrepresents.exists_eq_read hentry] at hid
      obtain ⟨base, hbase, rfl⟩ := Option.map_eq_some_iff.mp hid
      exact hindexed.ids_lt (hrepresents.base_mem_names hbase)
    definition_lt := fun entry hentry id hid => by
      rw [hrepresents.exists_eq_read hentry] at hid
      obtain ⟨definition, hdefinition, rfl⟩ := Option.map_eq_some_iff.mp hid
      exact hindexed.ids_lt
        (hrepresents.mem_names_of_find (TypeDecl.mem_mentioned_of_definition hdefinition))
    typeArguments_lt := fun entry hentry id hid => by
      rw [hrepresents.exists_eq_read hentry] at hid
      obtain ⟨argument, hargument, rfl⟩ := List.mem_map.mp hid
      exact hindexed.ids_lt
        (hrepresents.mem_names_of_find (TypeDecl.mem_mentioned_of_argument hargument))
    references_lt := fun id hid => by
      obtain ⟨name, hname, rfl⟩ := (h.mem_references_iff id).mp hid
      exact hindexed.ids_lt (h.mem_names_of_reference hname)
    knows_typeRef? := fun name t ht => by
      obtain ⟨hname, rfl⟩ := hrepresents.typeRef?_eq_some_iff.mp ht
      exact hrepresents.knows_handleOf hname
    knows_constructors := fun _ _ => hrepresents.knows_constructors h.acyclic
    knows_properties := fun _ _ => hrepresents.knows_properties h.acyclic
    knows_attributes := fun _ _ => hrepresents.knows_attributes h.acyclic
    knows_basesAndSelf := hclosed.basesAndSelf
    knows_genericArguments := fun _ _ => hrepresents.knows_genericArguments h.acyclic
    knows_originalDefinition := hclosed.originalDefinition
    knows_resolveWellKnown? := fun name t ht => by
      rw [h.resolveWellKnown?_eq] at ht
      split at ht
      · rename_i hname
        cases ht
        exact hrepresents.knows_handleOf (h.mem_names_of_reference hname)
      · contradiction
    knows_sites := fun site hsite t ht => by
      obtain ⟨call, hcall, rfl⟩ := List.mem_map.mp hsite
      obtain ⟨name, hname, rfl⟩ := List.mem_map.mp ht
      exact hrepresents.knows_handleOf (h.mem_names_of_typeArguments hcall hname) }

theorem holds_of_mapM_invocationSite {calls : List InvocationDecl}
    (hfits : (d.names calls).toFinset.card ≤ UInt32.size) (h : ofDocument d = .ok m) :
    Holds d calls ((calls.mapM invocationSite).run m).2 ∧
      ((calls.mapM invocationSite).run m).1 =
        calls.map (InvocationDecl.read ((calls.mapM invocationSite).run m).2.ids) := by
  have hdocument : (d.names []).toFinset.card ≤ UInt32.size :=
    (d.card_names_le (List.nil_subset calls)).trans hfits
  exact (holds_of_ofDocument hdocument h).invocationSites calls hfits

/-- Every model that a document has come to, by whatever calls, is consistent, as long as there are
no more names than identities. -/
theorem consistent_of_ofDocument (d : ModelDocument) (calls : List InvocationDecl)
    (hfits : (d.names calls).toFinset.card ≤ UInt32.size) (m : SymbolModel) (h : ofDocument d = .ok m) :
    ((calls.mapM invocationSite).run m).2.Consistent d calls
      ((calls.mapM invocationSite).run m).1 := by
  obtain ⟨hholds, hsites⟩ := holds_of_mapM_invocationSite hfits h
  rw [hsites]
  exact hholds.consistent

/-- A service that asks for a lazy clock and derives from the clock. -/
def lazyClock : ModelDocument :=
  { references := ["System.Lazy`1"]
    types := [
      { name := "Test.Clock" }
      , { name := "Test.Service"
          base := some "Test.Clock"
          constructors := [
            { attributes := ["Test.Inject"]
              parameters := [⟨"clock", "System.Lazy<Test.Clock>", none⟩] }] }
      , { name := "System.Lazy<Test.Clock>"
          definition := some "System.Lazy`1"
          typeArguments := ["Test.Clock"] }] }

def serviceCall : InvocationDecl :=
  { method := "Register"
    typeArguments := ["Test.IService", "Test.Service"]
    location := ⟨"Program.cs", 3, 9⟩ }

/-- Beside the three declared types there are the definition, the attribute and the interface. -/
theorem consistent_of_ofDocument_lazyClock :
    (lazyClock.names [serviceCall]).toFinset.card ≤ UInt32.size ∧
    ∃ m, ofDocument lazyClock = .ok m ∧
      (([serviceCall].mapM invocationSite).run m).2.size = 6 := by
  have hfits : (lazyClock.names [serviceCall]).toFinset.card ≤ UInt32.size := by decide +kernel
  have hbuilds : (ofDocument lazyClock).isOk = true := by decide +kernel
  cases h : ofDocument lazyClock with
  | error failure =>
    rw [h] at hbuilds
    contradiction
  | ok m =>
    refine ⟨hfits, m, rfl, ?_⟩
    rw [(consistent_of_ofDocument lazyClock [serviceCall] hfits m h).size_eq]
    decide +kernel

end SymbolModel
end Wiring
