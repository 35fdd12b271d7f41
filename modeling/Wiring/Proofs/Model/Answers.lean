import Wiring.Proofs.Model.Document

/-! What a model answers. About a handle that the model has given out, every answer is what the
declaration of its name says, with handles of the model for the names in it. -/
namespace Wiring

namespace TypeDecl

/-- The names of the bases from `next` up to the root. -/
inductive Chain (types : List TypeDecl) : Option String → List String → Prop where
  | root : Chain types none []
  | step {name : String} {rest : List String} (hrest : Chain types (find types name).base rest) :
      Chain types (some name) (name :: rest)

theorem Chain.unique {types : List TypeDecl} {next : Option String} {chain chain' : List String}
    (h : Chain types next chain) (h' : Chain types next chain') : chain = chain' := by
  induction h generalizing chain' with
  | root =>
    cases h'
    rfl
  | step _ ih =>
    cases h' with
    | step hrest => rw [ih hrest]

theorem find_mem_or_eq_bare (types : List TypeDecl) (name : String) :
    find types name ∈ types ∨ find types name = { name } := by
  unfold find
  cases hfind : types.find? fun type => type.name == name with
  | none => exact .inr rfl
  | some type => exact .inl (List.mem_of_find?_eq_some hfind)

/-- Names that are closed under declaration hold all of a declaration with its own name. -/
theorem forall_mem_names_find {types : List TypeDecl} {S : String → Prop}
    (hdeclared : ∀ type ∈ types, ∀ name ∈ type.names, S name) {name : String} (hname : S name) :
    ∀ other ∈ (find types name).names, S other := by
  rcases find_mem_or_eq_bare types name with hmem | hbare
  · exact hdeclared _ hmem
  · rw [hbare]
    exact List.forall_mem_singleton.mpr hname

theorem Chain.forall_mem {types : List TypeDecl} {S : String → Prop}
    (hdeclared : ∀ type ∈ types, ∀ name ∈ type.names, S name) {next : Option String}
    {chain : List String} (h : Chain types next chain) (hnext : ∀ name ∈ next, S name) :
    ∀ name ∈ chain, S name := by
  induction h with
  | root => simp
  | @step name rest _ ih =>
    have hname : S name := hnext name rfl
    refine List.forall_mem_cons.mpr ⟨hname, ih fun base hbase => ?_⟩
    exact forall_mem_names_find hdeclared hname base (mem_names_of_base hbase)

end TypeDecl

/-- What `m` answers about handles in `K` are handles in `K`. -/
structure SymbolPort.Closed (m : SymbolPort) (K : TypeRef → Prop) : Prop where
  owner_constructors : ∀ t, K t → ∀ c ∈ m.constructors t, K c.member.owner
  type_constructors : ∀ t, K t → ∀ c ∈ m.constructors t, ∀ p ∈ c.parameters, K p.type
  owner_properties : ∀ t, K t → ∀ p ∈ m.properties t, K p.owner
  type_properties : ∀ t, K t → ∀ p ∈ m.properties t, K p.type
  attributes : ∀ member, K member.owner → ∀ a ∈ m.attributes member, K a
  basesAndSelf : ∀ t, K t → ∀ base ∈ m.basesAndSelf t, K base
  genericArguments : ∀ t, K t → ∀ argument ∈ m.genericArguments t, K argument
  originalDefinition : ∀ t, K t → K (m.originalDefinition t)

namespace SymbolModel

/-- The model gives the handle for the name that it carries. -/
def Knows (m : SymbolModel) (t : TypeRef) : Prop := m.typeRef? t.name = some t

/-- The handle that the model has for a name. -/
def handleOf (m : SymbolModel) (name : String) : TypeRef := .named m.ids name

/-- The handles of `m` for names in `S`. -/
def HandleIn (m : SymbolModel) (S : String → Prop) (t : TypeRef) : Prop :=
  ∃ name, S name ∧ t = m.handleOf name

namespace Represents

variable {m : SymbolModel} {types : List TypeDecl} {name : String}

/-- Names that the declaration of a name mentions are names of the model. -/
theorem mem_names_of_find (h : m.Represents types) {other : String}
    (hmem : other ∈ (TypeDecl.find types name).mentioned) : other ∈ m.names := by
  rcases TypeDecl.find_mem_or_eq_bare types name with hfind | hfind
  · exact h.mentioned _ hfind other hmem
  · rw [hfind] at hmem
    exact absurd hmem (List.not_mem_nil)

theorem base_mem_names (h : m.Represents types) {base : String}
    (hbase : (TypeDecl.find types name).base = some base) : base ∈ m.names :=
  h.names_prefix.subset (h.bases _ (TypeDecl.find_mem_of_base hbase) base hbase)

section Handles

theorem entryAt?_ids (h : m.Represents types) (hname : name ∈ m.names) :
    m.entryAt? (m.ids name) = some ((TypeDecl.find types name).read m.ids) :=
  h.exists_entry hname

theorem handle?_ids (h : m.Represents types) (hname : name ∈ m.names) :
    m.handle? (m.ids name) = some (m.handleOf name) := by
  unfold handle?
  rw [h.entryAt?_ids hname, Option.map_some]
  exact congrArg (fun shown => some (TypeRef.mk (m.ids name) shown)) (TypeDecl.name_find types name)

theorem entry?_handleOf (h : m.Represents types) (hname : name ∈ m.names) :
    m.entry? (m.handleOf name) = some ((TypeDecl.find types name).read m.ids) := by
  have hshown : (((TypeDecl.find types name).read m.ids).name == name) = true :=
    beq_iff_eq.mpr (TypeDecl.name_find types name)
  unfold entry?
  change (m.entryAt? (m.ids name)).filter (fun entry => entry.name == name) = _
  rw [h.entryAt?_ids hname, Option.filter_some, if_pos hshown]

theorem knows_handleOf (h : m.Represents types) (hname : name ∈ m.names) :
    m.Knows (m.handleOf name) := by
  change (m.idOf? name).bind m.handle? = some (m.handleOf name)
  rw [h.indexed.idOf?_of_mem hname, Option.bind_some, h.handle?_ids hname]

/-- Identities and names are each other's inverse. -/
theorem idOf?_eq_some_iff (h : m.Represents types) {id : SymbolId} :
    m.idOf? name = some id ↔ ∃ entry, m.entryAt? id = some entry ∧ entry.name = name := by
  constructor
  · intro hid
    have hname : name ∈ m.names := h.indexed.mem_names_iff.mpr ⟨id, hid⟩
    rw [← ids_eq_of_idOf? hid]
    exact ⟨_, h.entryAt?_ids hname, TypeDecl.name_find types name⟩
  · rintro ⟨entry, hentry, rfl⟩
    refine h.indexed.idOf?_eq_some_iff.mpr ⟨id.toNat, ?_, UInt32.ofNat_toNat.symm⟩
    rw [getElem?_names]
    exact congrArg (Option.map TypeEntry.name) hentry

theorem typeRef?_eq_some_iff (h : m.Represents types) {t : TypeRef} :
    m.typeRef? name = some t ↔ name ∈ m.names ∧ t = m.handleOf name := by
  constructor
  · intro ht
    obtain ⟨id, hid, _⟩ := Option.bind_eq_some_iff.mp ht
    have hname : name ∈ m.names := h.indexed.mem_names_iff.mpr ⟨id, hid⟩
    exact ⟨hname, Option.some.inj (ht.symm.trans (h.knows_handleOf hname))⟩
  · rintro ⟨hname, rfl⟩
    exact h.knows_handleOf hname

theorem knows_iff (h : m.Represents types) {t : TypeRef} :
    m.Knows t ↔ t.name ∈ m.names ∧ t = m.handleOf t.name :=
  h.typeRef?_eq_some_iff

/-- A handle that has an entry is the one for its name. -/
theorem knows_of_entry? (h : m.Represents types) {t : TypeRef} {entry : TypeEntry}
    (hentry : m.entry? t = some entry) : m.Knows t := by
  obtain ⟨hat, hname⟩ := Option.filter_eq_some_iff.mp hentry
  have hid : m.idOf? t.name = some t.id :=
    h.idOf?_eq_some_iff.mpr ⟨entry, hat, beq_iff_eq.mp hname⟩
  refine h.knows_iff.mpr ⟨h.indexed.mem_names_iff.mpr ⟨t.id, hid⟩, ?_⟩
  exact congrArg (TypeRef.mk · t.name) (ids_eq_of_idOf? hid).symm

theorem knows_or_entry?_eq_none (h : m.Represents types) (t : TypeRef) :
    m.Knows t ∨ m.entry? t = none := by
  cases hentry : m.entry? t with
  | none => exact .inr rfl
  | some entry => exact .inl (h.knows_of_entry? hentry)

theorem ids_injective (h : m.Represents types) {other : String} (hname : name ∈ m.names)
    (hother : other ∈ m.names) (heq : m.ids name = m.ids other) : name = other := by
  have hhandle := h.handle?_ids hname
  rw [heq, h.handle?_ids hother] at hhandle
  exact (congrArg TypeRef.name (Option.some.inj hhandle)).symm

end Handles

section Members

theorem constructors_handleOf (h : m.Represents types) (hname : name ∈ m.names) :
    m.constructors (m.handleOf name) =
      (TypeDecl.find types name).constructors.zipIdx.map fun (c, ordinal) =>
        c.candidate m.ids (m.handleOf name) ordinal := by
  unfold constructors
  rw [h.entry?_handleOf hname]
  change List.map ConstructorEntry.candidate (List.map _ _) = _
  rw [List.map_map, TypeDecl.name_find]
  rfl

theorem properties_handleOf (h : m.Represents types) (hname : name ∈ m.names) :
    m.properties (m.handleOf name) =
      (TypeDecl.find types name).properties.map (PropertyDecl.candidate m.ids (m.handleOf name)) := by
  unfold properties
  rw [h.entry?_handleOf hname]
  change List.map PropertyEntry.candidate (List.map _ _) = _
  rw [List.map_map, TypeDecl.name_find]
  rfl

theorem constructorEntry?_handleOf (h : m.Represents types) (hname : name ∈ m.names)
    (ordinal : UInt64) :
    m.constructorEntry? (m.handleOf name) ordinal =
      ((TypeDecl.find types name).constructors[ordinal.toNat]?).map fun c =>
        c.read m.ids (m.handleOf name) ordinal.toNat := by
  unfold constructorEntry?
  rw [h.entry?_handleOf hname, Option.bind_some]
  change (List.map _ _)[ordinal.toNat]? = _
  rw [List.getElem?_map, List.getElem?_zipIdx, Option.map_map, TypeDecl.name_find, Nat.zero_add]
  rfl

theorem propertyEntry?_handleOf (h : m.Represents types) (hname : name ∈ m.names)
    (property : String) :
    m.propertyEntry? (m.handleOf name) property =
      ((TypeDecl.find types name).properties.find? fun p => p.name == property).map
        (PropertyDecl.read m.ids (m.handleOf name)) := by
  unfold propertyEntry?
  rw [h.entry?_handleOf hname, Option.bind_some]
  change (List.map _ _).find? _ = _
  rw [List.find?_map, TypeDecl.name_find]
  rfl

theorem attributes_constructor_handleOf (h : m.Represents types) (hname : name ∈ m.names)
    (ordinal : UInt64) :
    m.attributes (.constructor (m.handleOf name) ordinal) =
      ((TypeDecl.find types name).constructors[ordinal.toNat]?.elim []
        ConstructorDecl.attributes).map m.handleOf := by
  rw [attributes, h.constructorEntry?_handleOf hname]
  cases (TypeDecl.find types name).constructors[ordinal.toNat]? <;> rfl

theorem attributes_property_handleOf (h : m.Represents types) (hname : name ∈ m.names)
    (property : String) :
    m.attributes (.property (m.handleOf name) property) =
      (((TypeDecl.find types name).properties.find? fun p => p.name == property).elim []
        PropertyDecl.attributes).map m.handleOf := by
  rw [attributes, h.propertyEntry?_handleOf hname]
  cases (TypeDecl.find types name).properties.find? fun p => p.name == property <;> rfl

theorem accessibility_constructor_handleOf (h : m.Represents types) (hname : name ∈ m.names)
    (ordinal : UInt64) :
    m.accessibility (.constructor (m.handleOf name) ordinal) =
      (TypeDecl.find types name).constructors[ordinal.toNat]?.elim .privateAccess
        ConstructorDecl.accessibility := by
  rw [accessibility, h.constructorEntry?_handleOf hname]
  cases (TypeDecl.find types name).constructors[ordinal.toNat]? <;> rfl

theorem accessibility_property_handleOf (h : m.Represents types) (hname : name ∈ m.names)
    (property : String) :
    m.accessibility (.property (m.handleOf name) property) =
      ((TypeDecl.find types name).properties.find? fun p => p.name == property).elim .privateAccess
        PropertyDecl.accessibility := by
  rw [accessibility, h.propertyEntry?_handleOf hname]
  cases (TypeDecl.find types name).properties.find? fun p => p.name == property <;> rfl

/-- A setter is as accessible as it is declared, and no more than its property. -/
theorem accessibility_propertySetter_handleOf (h : m.Represents types) (hname : name ∈ m.names)
    (property : String) :
    m.accessibility (.propertySetter (m.handleOf name) property) =
      ((TypeDecl.find types name).properties.find? fun p => p.name == property).elim .privateAccess
        fun p => p.setter.elim .privateAccess fun setter => setter.least p.accessibility := by
  rw [accessibility, h.propertyEntry?_handleOf hname]
  cases (TypeDecl.find types name).properties.find? fun p => p.name == property with
  | none => rfl
  | some p =>
    change setterLevel (p.read m.ids (m.handleOf name)) =
      p.setter.elim .privateAccess fun setter => setter.least p.accessibility
    unfold setterLevel PropertyDecl.read
    cases p.setter <;> rfl

theorem genericArguments_handleOf (h : m.Represents types) (hname : name ∈ m.names) :
    m.genericArguments (m.handleOf name) =
      (TypeDecl.find types name).typeArguments.map m.handleOf := by
  unfold genericArguments
  rw [h.entry?_handleOf hname]
  change List.filterMap m.handle? (List.map m.ids _) = _
  rw [List.filterMap_map, ← List.filterMap_eq_map]
  apply List.filterMap_congr
  intro argument hargument
  exact h.handle?_ids (h.mem_names_of_find (TypeDecl.mem_mentioned_of_argument hargument))

theorem originalDefinition_handleOf (h : m.Represents types) (hname : name ∈ m.names) :
    m.originalDefinition (m.handleOf name) =
      m.handleOf ((TypeDecl.find types name).definition.getD name) := by
  unfold originalDefinition
  rw [h.entry?_handleOf hname, Option.bind_some]
  change (Option.bind (Option.map m.ids _) m.handle?).getD _ = _
  cases hdefinition : (TypeDecl.find types name).definition with
  | none => rfl
  | some definition =>
    have hmem : definition ∈ m.names :=
      h.mem_names_of_find (TypeDecl.mem_mentioned_of_definition hdefinition)
    rw [Option.map_some, Option.bind_some, h.handle?_ids hmem]
    rfl

/-- The chain above a type is that of the declared bases. -/
theorem exists_chain_of_climbs (h : m.Represents types) {next : Option String}
    {handles : List TypeRef} (hnext : ∀ name ∈ next, name ∈ m.names)
    (hclimbs : m.Climbs (next.map m.ids) handles) :
    ∃ chain, TypeDecl.Chain types next chain ∧ handles = chain.map m.handleOf := by
  generalize hstart : next.map m.ids = start at hclimbs
  induction hclimbs generalizing next with
  | root =>
    rw [Option.map_eq_none_iff.mp hstart]
    exact ⟨[], .root, rfl⟩
  | @step id entry rest hentry _ ih =>
    obtain ⟨name, rfl, rfl⟩ := Option.map_eq_some_iff.mp hstart
    obtain rfl := Option.some.inj ((h.entryAt?_ids (hnext name rfl)).symm.trans hentry)
    obtain ⟨chain, hchain, rfl⟩ := ih (fun _ => h.base_mem_names) rfl
    refine ⟨name :: chain, .step hchain, ?_⟩
    exact congrArg (TypeRef.mk (m.ids name) · :: chain.map m.handleOf)
      (TypeDecl.name_find types name)

theorem exists_basesAndSelf_eq (h : m.Represents types) (hacyclic : m.Acyclic)
    (hname : name ∈ m.names) :
    ∃ chain, TypeDecl.Chain types (TypeDecl.find types name).base chain ∧
      m.basesAndSelf (m.handleOf name) = (name :: chain).map m.handleOf := by
  obtain ⟨handles, hclimbs, hlength⟩ := hacyclic.exists_climbs h.basesInRange (h.exists_entry hname)
  obtain ⟨chain, hchain, rfl⟩ := h.exists_chain_of_climbs (fun _ => h.base_mem_names) hclimbs
  refine ⟨chain, hchain, ?_⟩
  unfold basesAndSelf
  rw [h.entry?_handleOf hname, Option.bind_some]
  exact congrArg (m.handleOf name :: ·) (hclimbs.ancestors_eq hlength)

end Members

/-- Whatever is asked about names that are closed under declaration, the answers are handles for
such names. -/
theorem closed (h : m.Represents types) (hacyclic : m.Acyclic) {S : String → Prop}
    (hknown : ∀ name, S name → name ∈ m.names)
    (hdeclared : ∀ type ∈ types, ∀ name ∈ type.names, S name) : m.port.Closed (m.HandleIn S) := by
  have hmentioned : ∀ name, S name → ∀ other ∈ (TypeDecl.find types name).mentioned,
      m.HandleIn S (m.handleOf other) := fun name hname other hother =>
    ⟨other, TypeDecl.forall_mem_names_find hdeclared hname other (List.mem_append_right _ hother),
      rfl⟩
  exact {
    owner_constructors := by
      rintro _ ⟨name, hname, rfl⟩ c hc
      rw [port_constructors, h.constructors_handleOf (hknown name hname)] at hc
      obtain ⟨_, _, rfl⟩ := List.mem_map.mp hc
      exact ⟨name, hname, rfl⟩
    type_constructors := by
      rintro _ ⟨name, hname, rfl⟩ c hc p hp
      rw [port_constructors, h.constructors_handleOf (hknown name hname)] at hc
      obtain ⟨⟨declared, ordinal⟩, hmem, rfl⟩ := List.mem_map.mp hc
      obtain ⟨parameter, hparameter, rfl⟩ := List.mem_map.mp hp
      exact hmentioned name hname _ (TypeDecl.mem_mentioned_of_constructor
        (List.fst_mem_of_mem_zipIdx hmem)
        (List.mem_append_left _ (List.mem_map_of_mem hparameter)))
    owner_properties := by
      rintro _ ⟨name, hname, rfl⟩ p hp
      rw [port_properties, h.properties_handleOf (hknown name hname)] at hp
      obtain ⟨_, _, rfl⟩ := List.mem_map.mp hp
      exact ⟨name, hname, rfl⟩
    type_properties := by
      rintro _ ⟨name, hname, rfl⟩ p hp
      rw [port_properties, h.properties_handleOf (hknown name hname)] at hp
      obtain ⟨declared, hmem, rfl⟩ := List.mem_map.mp hp
      exact hmentioned name hname _ (TypeDecl.mem_mentioned_of_property hmem List.mem_cons_self)
    attributes := by
      rintro (⟨_, ordinal⟩ | ⟨_, property⟩ | _) ⟨name, hname, rfl⟩ a ha
      · rw [port_attributes, h.attributes_constructor_handleOf (hknown name hname)] at ha
        obtain ⟨applied, happlied, rfl⟩ := List.mem_map.mp ha
        exact hmentioned name hname _ (TypeDecl.mem_mentioned_of_constructorAttribute happlied)
      · rw [port_attributes, h.attributes_property_handleOf (hknown name hname)] at ha
        obtain ⟨applied, happlied, rfl⟩ := List.mem_map.mp ha
        exact hmentioned name hname _ (TypeDecl.mem_mentioned_of_propertyAttribute happlied)
      · contradiction
    basesAndSelf := by
      rintro _ ⟨name, hname, rfl⟩ base hbase
      obtain ⟨chain, hchain, heq⟩ := h.exists_basesAndSelf_eq hacyclic (hknown name hname)
      have hnames : ∀ base ∈ chain, S base := hchain.forall_mem hdeclared fun base hbase =>
        TypeDecl.forall_mem_names_find hdeclared hname base (TypeDecl.mem_names_of_base hbase)
      rw [port_basesAndSelf, heq] at hbase
      obtain ⟨other, hother, rfl⟩ := List.mem_map.mp hbase
      exact ⟨other, List.forall_mem_cons.mpr ⟨hname, hnames⟩ other hother, rfl⟩
    genericArguments := by
      rintro _ ⟨name, hname, rfl⟩ argument hargument
      rw [port_genericArguments, h.genericArguments_handleOf (hknown name hname)] at hargument
      obtain ⟨other, hother, rfl⟩ := List.mem_map.mp hargument
      exact hmentioned name hname _ (TypeDecl.mem_mentioned_of_argument hother)
    originalDefinition := by
      rintro _ ⟨name, hname, rfl⟩
      rw [port_originalDefinition, h.originalDefinition_handleOf (hknown name hname)]
      cases hdefinition : (TypeDecl.find types name).definition with
      | none => exact ⟨name, hname, rfl⟩
      | some definition =>
        exact hmentioned name hname _ (TypeDecl.mem_mentioned_of_definition hdefinition) }

theorem closed_knows (h : m.Represents types) (hacyclic : m.Acyclic) : m.port.Closed m.Knows := by
  have hsame : m.HandleIn (· ∈ m.names) = m.Knows := by
    funext t
    refine propext ⟨?_, fun ht => ?_⟩
    · rintro ⟨name, hname, rfl⟩
      exact h.knows_handleOf hname
    · exact ⟨t.name, h.knows_iff.mp ht⟩
  rw [← hsame]
  exact h.closed hacyclic (fun _ => id) fun _ htype _ => h.mem_names htype

end Represents
end SymbolModel
end Wiring
