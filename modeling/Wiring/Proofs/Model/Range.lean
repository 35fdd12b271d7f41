import Wiring.Proofs.Model.Consistency

/-! Identities in an arena. However many names there are, and also when identities run out and are
given out again, every identity in an entry is a place of the arena, every base is the place of a
declared type, and no type is above itself. -/
namespace Wiring

/-- The identities in an entry are places in an arena of `size` types, the first of them declared. -/
structure TypeEntry.InRange (declared size : Nat) (entry : TypeEntry) : Prop where
  base_lt : ∀ id, entry.base = some id → id.toNat < declared
  definition_lt : ∀ id, entry.definition = some id → id.toNat < size
  typeArguments_lt : ∀ id ∈ entry.typeArguments, id.toNat < size

namespace TypeEntry

variable {declared size : Nat} {entry : TypeEntry}

theorem inRange_bare (declared size : Nat) (name : String) : InRange declared size { name } :=
  ⟨by simp, by simp, by simp⟩

theorem InRange.mono (h : entry.InRange declared size) {larger : Nat} (hle : size ≤ larger) :
    entry.InRange declared larger :=
  ⟨h.base_lt, fun id hid => (h.definition_lt id hid).trans_le hle,
    fun id hid => (h.typeArguments_lt id hid).trans_le hle⟩

end TypeEntry

namespace SymbolModel

variable {m later : SymbolModel} {fresh : List String}

section Extension

theorem Extends.size_le (h : m.Extends fresh later) : m.size ≤ later.size := by
  rw [← length_names, ← length_names, h.names_eq]
  simp

theorem Extends.getElem?_types (h : m.Extends fresh later) {position : Nat} {entry : TypeEntry}
    (hentry : m.types[position]? = some entry) : later.types[position]? = some entry := by
  obtain ⟨hlt, _⟩ := Array.getElem?_eq_some_iff.mp hentry
  rw [← Array.getElem?_toList, h.types_eq, List.getElem?_append_left (by simpa using hlt),
    Array.getElem?_toList, hentry]

/-- What an extension adds has no base, so it adds nothing above any type. -/
theorem Extends.of_getElem?_types (h : m.Extends fresh later) {position : Nat} {entry : TypeEntry}
    (hentry : later.types[position]? = some entry) :
    m.types[position]? = some entry ∨ ∃ name ∈ fresh, entry = { name } := by
  rw [← Array.getElem?_toList, h.types_eq] at hentry
  rcases Nat.lt_or_ge position m.types.toList.length with hlt | hge
  · rw [List.getElem?_append_left hlt, Array.getElem?_toList] at hentry
    exact .inl hentry
  · rw [List.getElem?_append_right hge, List.getElem?_map, Option.map_eq_some_iff] at hentry
    obtain ⟨name, hname, rfl⟩ := hentry
    exact .inr ⟨name, List.mem_of_getElem? hname, rfl⟩

theorem Extends.link_iff (h : m.Extends fresh later) {position above : Nat} :
    later.Link position above ↔ m.Link position above := by
  constructor
  · rintro ⟨entry, id, hentry, hbase, rfl⟩
    rcases h.of_getElem?_types hentry with hold | ⟨name, _, rfl⟩
    · exact ⟨entry, id, hold, hbase, rfl⟩
    · contradiction
  · rintro ⟨entry, id, hentry, hbase, rfl⟩
    exact ⟨entry, id, h.getElem?_types hentry, hbase, rfl⟩

theorem Extends.acyclic (h : m.Extends fresh later) (hacyclic : m.Acyclic) : later.Acyclic :=
  fun position hcycle =>
    hacyclic position (Relation.TransGen.mono (fun _ _ => h.link_iff.mp) _ _ hcycle)

end Extension

/-- The index knows every name, and every identity in the arena is a place of it. -/
structure InRange (m : SymbolModel) : Prop where
  indexed : m.Indexed
  declared_le : m.declared ≤ m.size
  entries : ∀ (position : Nat) (entry : TypeEntry), m.types[position]? = some entry →
    entry.InRange m.declared m.size

namespace InRange

theorem basesInRange (h : m.InRange) : m.BasesInRange := by
  rintro position _ ⟨entry, id, hentry, hbase, rfl⟩
  exact ((h.entries position entry hentry).base_lt id hbase).trans_le h.declared_le

theorem withReferences (h : m.InRange) (references : List SymbolId) :
    (m.withReferences references).InRange :=
  ⟨h.indexed.withReferences references, h.declared_le, h.entries⟩

theorem extend (h : m.InRange) (hextends : m.Extends fresh later) : later.InRange where
  indexed := hextends.indexed
  declared_le := by
    rw [hextends.declared_eq]
    exact h.declared_le.trans hextends.size_le
  entries position entry hentry := by
    rw [hextends.declared_eq]
    rcases hextends.of_getElem?_types hentry with hold | ⟨name, _, rfl⟩
    · exact (h.entries position entry hold).mono hextends.size_le
    · exact TypeEntry.inRange_bare _ _ name

theorem meetAll (h : m.InRange) (mentioned : List String) : (m.meetAll mentioned).InRange :=
  let ⟨_, hextends, _⟩ := h.indexed.exists_extends_meetAll mentioned
  h.extend hextends

theorem fill (h : m.InRange) (id : SymbolId) {entry : TypeEntry}
    (hentry : entry.InRange m.declared m.size) : (m.fill id entry).InRange := by
  have hsize : (m.fill id entry).size = m.size := by
    rw [← length_names, names_fill, length_names]
  refine ⟨h.indexed.fill id entry, hsize ▸ h.declared_le, fun position found hfound => ?_⟩
  rw [hsize]
  rw [SymbolModel.fill, Array.getElem?_modify] at hfound
  split at hfound
  · obtain ⟨_, _, rfl⟩ := Option.map_eq_some_iff.mp hfound
    exact ⟨hentry.base_lt, hentry.definition_lt, hentry.typeArguments_lt⟩
  · exact h.entries position found hfound

end InRange

section Building

variable {types : List TypeDecl} {type : TypeDecl}

theorem Filling.inRange (h : Filling types [] m) : m.InRange where
  indexed := h.indexed
  declared_le := by
    rw [h.declared_eq, ← length_names, ← List.length_map TypeDecl.name]
    exact h.names_prefix.length_le
  entries position entry hentry := by
    rw [h.reads position entry hentry m (.refl h.indexed)]
    exact TypeEntry.inRange_bare _ _ entry.name

theorem toNat_lt_of_declaredBase {base : Option SymbolId} (h : m.declaredBase type = .ok base)
    (id : SymbolId) (hid : base = some id) : id.toNat < m.declared := by
  unfold declaredBase at h
  split at h
  · cases h
    contradiction
  · split at h
    · rename_i found hfound
      cases h
      cases hid
      simpa using (Option.filter_eq_some_iff.mp hfound).2
    · contradiction

/-- The entry that is made for a declared type, once the names that it mentions are met. -/
theorem Indexed.inRange_declaredEntry (h : m.Indexed) (owner : TypeRef) (type : TypeDecl)
    {base : Option SymbolId} {declared : Nat} (hbase : ∀ id, base = some id → id.toNat < declared) :
    ((declaredEntry owner base type).run m).1.InRange declared
      ((declaredEntry owner base type).run m).2.size := by
  have hinterns := interns_declaredEntry owner base type
  have hmet : (m.meetAll type.mentioned).Indexed := h.meetAll type.mentioned
  have hids : ∀ name ∈ type.mentioned,
      ((m.meetAll type.mentioned).ids name).toNat < (m.meetAll type.mentioned).size :=
    fun name hname => hmet.ids_lt ((h.mem_names_meetAll_iff _).mpr (.inr hname))
  rw [hinterns.value_eq m _ h (.refl hmet), hinterns.state_eq m]
  refine ⟨hbase, fun id hid => ?_, fun id hid => ?_⟩
  · obtain ⟨definition, hdefinition, rfl⟩ := Option.map_eq_some_iff.mp hid
    exact hids definition (TypeDecl.mem_mentioned_of_definition hdefinition)
  · obtain ⟨argument, hargument, rfl⟩ := List.mem_map.mp hid
    exact hids argument (TypeDecl.mem_mentioned_of_argument hargument)

theorem InRange.declare (h : m.InRange) (hok : m.declare type = .ok later) : later.InRange := by
  unfold SymbolModel.declare at hok
  split at hok
  rename_i owner met howner
  have hmet : met.InRange := by
    have hstate : ((internRef type.name).run m).2 = m.meetAll [type.name] :=
      (Interns.internRef type.name).state_eq m
    rw [howner] at hstate
    change met = _ at hstate
    exact hstate ▸ h.meetAll [type.name]
  split at hok
  · contradiction
  · rename_i base hbase
    split at hok
    rename_i entry filled hentry
    cases hok
    obtain ⟨_, hextends, _⟩ := hmet.indexed.exists_extends_meetAll type.mentioned
    have hstate := (interns_declaredEntry owner base type).state_eq met
    have hrange := hmet.indexed.inRange_declaredEntry owner type (toNat_lt_of_declaredBase hbase)
    rw [hentry] at hstate hrange
    change filled = _ at hstate
    rw [← hstate] at hextends
    rw [← hextends.declared_eq] at hrange
    exact (hmet.extend hextends).fill owner.id hrange

theorem InRange.foldlM_declare (h : m.InRange)
    (hok : types.foldlM SymbolModel.declare m = .ok later) : later.InRange := by
  induction types generalizing m with
  | nil =>
    cases hok
    exact h
  | cons type rest ih =>
    rw [List.foldlM_cons] at hok
    cases hdeclare : m.declare type with
    | error failure =>
      rw [hdeclare] at hok
      contradiction
    | ok next =>
      rw [hdeclare] at hok
      exact ih (h.declare hdeclare) hok

end Building

section Documents

variable {d : ModelDocument}

theorem distinct_of_ofDocument (h : ofDocument d = .ok m) : (d.types.map TypeDecl.name).Nodup := by
  by_contra hrepeated
  obtain ⟨_, _, _, _, _, _, herror⟩ := ofDocument_of_not_nodup hrepeated
  rw [herror] at h
  contradiction

/-- A document that loads has been declared and has passed the check before references are met. -/
theorem exists_declared_of_ofDocument (h : ofDocument d = .ok m) :
    ∃ filled : SymbolModel, filled.InRange ∧ filled.checkInheritance = .ok () ∧
      m = ((d.references.forM refer).run filled).2 := by
  obtain ⟨bare, hbare, hfilling⟩ := exists_foldlM_announce_empty (distinct_of_ofDocument h)
  unfold ofDocument at h
  simp only [hbare, bind, Except.bind] at h
  split at h
  · contradiction
  · rename_i filled hfilled
    split at h
    · contradiction
    · rename_i hcheck
      cases h
      exact ⟨filled, hfilling.inRange.foldlM_declare hfilled, hcheck, rfl⟩

theorem acyclic_of_checkInheritance (h : m.checkInheritance = .ok ()) : m.Acyclic := by
  by_contra hcycle
  obtain ⟨_, _, _, _, _, _, herror⟩ := checkInheritance_of_not_acyclic hcycle
  rw [herror] at h
  contradiction

theorem inRange_acyclic_of_ofDocument (h : ofDocument d = .ok m) : m.InRange ∧ m.Acyclic := by
  obtain ⟨filled, hrange, hcheck, rfl⟩ := exists_declared_of_ofDocument h
  obtain ⟨_, hextends, _⟩ := hrange.indexed.exists_extends_meetAll d.references
  rw [run_forM_refer hrange.indexed]
  exact ⟨(hrange.extend hextends).withReferences _,
    hextends.acyclic (acyclic_of_checkInheritance hcheck)⟩

/-- Binding calls only adds bare types. -/
theorem Indexed.exists_extends_invocationSites (h : m.Indexed) (calls : List InvocationDecl) :
    ∃ fresh, m.Extends fresh ((calls.mapM invocationSite).run m).2 ∧
      ∀ name, name ∈ fresh ↔ name ∈ calls.flatMap InvocationDecl.typeArguments ∧ name ∉ m.names := by
  rw [(Interns.mapM interns_invocationSite calls).state_eq m]
  exact h.exists_extends_meetAll _

theorem inRange_acyclic_of_invocationSites (h : ofDocument d = .ok m)
    (calls : List InvocationDecl) :
    ((calls.mapM invocationSite).run m).2.InRange ∧
      ((calls.mapM invocationSite).run m).2.Acyclic := by
  obtain ⟨hrange, hacyclic⟩ := inRange_acyclic_of_ofDocument h
  obtain ⟨_, hextends, _⟩ := hrange.indexed.exists_extends_invocationSites calls
  exact ⟨hrange.extend hextends, hextends.acyclic hacyclic⟩

end Documents
end SymbolModel
end Wiring
