import Wiring.Proofs.Model.Declaration

/-! How a model is built. Declared types get their places, then each is filled in; while that goes
on, the entry of a type is what the declarations read so far say, and all other types are bare.
Types that are only mentioned stand after the declared ones and are never taken for a base. -/
namespace Wiring

namespace TypeDecl

variable {types : List TypeDecl}

theorem name_find (types : List TypeDecl) (name : String) : (find types name).name = name := by
  unfold find
  cases hfind : types.find? fun type => type.name == name with
  | none => rfl
  | some type => simpa using List.find?_some hfind

theorem find_eq_bare {name : String} (h : name ∉ types.map TypeDecl.name) :
    find types name = { name } := by
  have hnone : (types.find? fun type => type.name == name) = none := by
    rw [List.find?_eq_none]
    exact fun type hmem heq => h (List.mem_map.mpr ⟨type, hmem, by simpa using heq⟩)
  unfold find
  rw [hnone, Option.getD_none]

theorem find_append_self {type : TypeDecl} (h : type.name ∉ types.map TypeDecl.name) :
    find (types ++ [type]) type.name = type := by
  have hnone : (types.find? fun other => other.name == type.name) = none := by
    rw [List.find?_eq_none]
    exact fun other hmem heq => h (List.mem_map.mpr ⟨other, hmem, by simpa using heq⟩)
  simp [find, List.find?_append, hnone]

theorem find_append_of_ne {type : TypeDecl} {name : String} (h : name ≠ type.name) :
    find (types ++ [type]) name = find types name := by
  have hne : (type.name == name) = false := by simpa using h.symm
  simp [find, List.find?_append, hne]

theorem find_of_mem (hnodup : (types.map TypeDecl.name).Nodup) {type : TypeDecl}
    (hmem : type ∈ types) : find types type.name = type := by
  have hfind : (types.find? fun other => other.name == type.name) = some type := by
    cases hfind : types.find? fun other => other.name == type.name with
    | none => exact absurd (List.find?_eq_none.mp hfind type hmem) (by simp)
    | some other =>
      have hname : other.name = type.name := by simpa using List.find?_some hfind
      rw [List.inj_on_of_nodup_map hnodup (List.mem_of_find?_eq_some hfind) hmem hname]
  unfold find
  rw [hfind, Option.getD_some]

theorem read_bare (ids : String → SymbolId) (name : String) :
    read ids { name } = { name } := rfl

/-- The base of a declared type is one of the declared types. -/
def HasBase (types : List TypeDecl) (type : TypeDecl) : Prop :=
  ∀ base, type.base = some base → base ∈ types.map TypeDecl.name

end TypeDecl

namespace SymbolModel

variable {m : SymbolModel} {types : List TypeDecl}

section Places

theorem Indexed.ids_eq_ofNat (h : m.Indexed) {position : Nat} {name : String}
    (hname : m.names[position]? = some name) : m.ids name = UInt32.ofNat position :=
  ids_eq_of_idOf? (h.idOf?_eq_some_iff.mpr ⟨position, hname, rfl⟩)

/-- An identity that is given out is a place, if not the one where its name stands. -/
theorem Indexed.ids_lt (h : m.Indexed) {name : String} (hname : name ∈ m.names) :
    (m.ids name).toNat < m.size := by
  obtain ⟨position, hposition⟩ := List.mem_iff_getElem?.mp hname
  obtain ⟨hlt, _⟩ := List.getElem?_eq_some_iff.mp hposition
  rw [length_names] at hlt
  rw [h.ids_eq_ofNat hposition, UInt32.toNat_ofNat']
  exact (Nat.mod_le _ _).trans_lt hlt

/-- As long as there are identities enough, that of a name is its position. -/
theorem Indexed.toNat_ids (h : m.Indexed) (hfits : m.size ≤ UInt32.size) {position : Nat}
    {name : String} (hname : m.names[position]? = some name) : (m.ids name).toNat = position := by
  obtain ⟨hlt, _⟩ := List.getElem?_eq_some_iff.mp hname
  rw [length_names] at hlt
  rw [h.ids_eq_ofNat hname, UInt32.toNat_ofNat_of_lt' (Nat.lt_of_lt_of_le hlt hfits)]

/-- An arena is no larger than the set of names it is made of. -/
theorem Indexed.size_le (h : m.Indexed) {names : List String} (hsubset : m.names ⊆ names) :
    m.size ≤ names.toFinset.card := by
  rw [← length_names, ← List.toFinset_card_of_nodup h.nodup]
  exact Finset.card_le_card fun name hmem =>
    List.mem_toFinset.mpr (hsubset (List.mem_toFinset.mp hmem))

end Places

section Announcing

theorem announce_of_not_mem (h : m.Indexed) {type : TypeDecl} (hnew : type.name ∉ m.names) :
    m.announce type = .ok (m.push type.name) := by
  unfold announce
  rw [h.idOf?_eq_none_iff.mpr hnew]

theorem announce_of_mem (h : m.Indexed) {type : TypeDecl} (hold : type.name ∈ m.names) :
    m.announce type = .error (.duplicateType type.name) := by
  unfold announce
  rw [h.idOf?_of_mem hold]

theorem exists_foldlM_announce (h : m.Indexed)
    (hnodup : (m.names ++ types.map TypeDecl.name).Nodup) :
    ∃ later, types.foldlM announce m = .ok later ∧
      m.Extends (types.map TypeDecl.name) later := by
  induction types generalizing m with
  | nil => exact ⟨m, rfl, h.extends_self⟩
  | cons type rest ih =>
    rw [List.map_cons, List.append_cons] at hnodup
    have hnew : type.name ∉ m.names := fun hmem =>
      (List.nodup_append.mp (List.nodup_append.mp hnodup).1).2.2 _ hmem _ (by simp) rfl
    rw [← names_push] at hnodup
    obtain ⟨later, hrest, hextends⟩ := ih (h.push hnew) hnodup
    refine ⟨later, ?_, (h.extends_push hnew).trans hextends⟩
    rw [List.foldlM_cons, announce_of_not_mem h hnew]
    exact hrest

/-- The first declaration that repeats a name is refused. -/
theorem exists_foldlM_announce_eq_error (h : m.Indexed)
    (hrepeated : ¬ (m.names ++ types.map TypeDecl.name).Nodup) :
    ∃ before type after, types = before ++ type :: after ∧
      (m.names ++ before.map TypeDecl.name).Nodup ∧
      type.name ∈ m.names ++ before.map TypeDecl.name ∧
      types.foldlM announce m = .error (.duplicateType type.name) := by
  induction types generalizing m with
  | nil => exact absurd (by simpa using h.nodup) hrepeated
  | cons type rest ih =>
    by_cases hold : type.name ∈ m.names
    · refine ⟨[], type, rest, rfl, by simpa using h.nodup, by simpa using hold, ?_⟩
      rw [List.foldlM_cons, announce_of_mem h hold]
      rfl
    · have hpush : m.names ++ (type :: rest).map TypeDecl.name =
          (m.push type.name).names ++ rest.map TypeDecl.name := by
        rw [names_push, List.map_cons, List.append_cons]
      rw [hpush] at hrepeated
      obtain ⟨before, other, after, rfl, hnodup, hmem, hrest⟩ := ih (h.push hold) hrepeated
      have hbefore : m.names ++ (type :: before).map TypeDecl.name =
          (m.push type.name).names ++ before.map TypeDecl.name := by
        rw [names_push, List.map_cons, List.append_cons]
      refine ⟨type :: before, other, after, rfl, hbefore ▸ hnodup, hbefore ▸ hmem, ?_⟩
      rw [List.foldlM_cons, announce_of_not_mem h hold]
      exact hrest

end Announcing

/-- Every entry is what the declarations say of its name, whatever names are met later. -/
def Reads (m : SymbolModel) (types : List TypeDecl) : Prop :=
  ∀ (position : Nat) (entry : TypeEntry), m.types[position]? = some entry →
    ∀ later : SymbolModel, m.Grown later →
      entry = (TypeDecl.find types entry.name).read later.ids

theorem Reads.of_types_eq (h : m.Reads types) {same : SymbolModel} (htypes : same.types = m.types) :
    same.Reads types := by
  intro position entry hentry later hlater
  have hnames : same.names = m.names := by rw [names, htypes, names]
  exact h position entry (htypes ▸ hentry) later ⟨hlater.indexed, hnames ▸ hlater.names_prefix⟩

/-- Types at the end that are not declared change nothing. -/
theorem Reads.extend (h : m.Reads types) (hdeclared : types.map TypeDecl.name ⊆ m.names)
    {fresh : List String} {later : SymbolModel} (hextends : m.Extends fresh later) :
    later.Reads types := by
  intro position entry hentry last hlast
  rw [← Array.getElem?_toList, hextends.types_eq] at hentry
  rcases Nat.lt_or_ge position m.types.toList.length with hlt | hge
  · rw [List.getElem?_append_left hlt, Array.getElem?_toList] at hentry
    exact h position entry hentry last (hextends.grown.trans hlast)
  · rw [List.getElem?_append_right hge, List.getElem?_map, Option.map_eq_some_iff] at hentry
    obtain ⟨name, hname, rfl⟩ := hentry
    have hnew : name ∉ types.map TypeDecl.name := by
      intro hmem
      have hnodup : (m.names ++ fresh).Nodup := hextends.names_eq ▸ hextends.indexed.nodup
      exact (List.nodup_append.mp hnodup).2.2 _ (hdeclared hmem) _
        (List.mem_of_getElem? hname) rfl
    change _ = (TypeDecl.find types name).read last.ids
    rw [TypeDecl.find_eq_bare hnew, TypeDecl.read_bare]

section Filling

/-- The arena after the types `done` have been filled in, of all declared `types`. -/
structure Filling (types done : List TypeDecl) (m : SymbolModel) : Prop where
  indexed : m.Indexed
  declared_eq : m.declared = types.length
  references_eq : m.references = []
  names_prefix : types.map TypeDecl.name <+: m.names
  mem_names_iff : ∀ name, name ∈ m.names ↔
    name ∈ types.map TypeDecl.name ∨ name ∈ done.flatMap TypeDecl.mentioned
  reads : m.Reads done

theorem names_fill (m : SymbolModel) (id : SymbolId) (entry : TypeEntry) :
    (m.fill id entry).names = m.names := by
  apply List.ext_getElem?
  intro position
  rw [getElem?_names, getElem?_names, fill, Array.getElem?_modify]
  split
  · rw [Option.map_map]
    rfl
  · rfl

theorem grown_fill_iff {id : SymbolId} {entry : TypeEntry} {later : SymbolModel} :
    (m.fill id entry).Grown later ↔ m.Grown later := by
  constructor
  · exact fun h => ⟨h.indexed, names_fill m id entry ▸ h.names_prefix⟩
  · exact fun h => ⟨h.indexed, (names_fill m id entry).symm ▸ h.names_prefix⟩

theorem Indexed.fill (h : m.Indexed) (id : SymbolId) (entry : TypeEntry) :
    (m.fill id entry).Indexed := by
  constructor
  · rw [names_fill]
    exact h.index_eq
  · rw [names_fill]
    exact h.nodup

/-- The bases that are accepted are the declared ones: identities below the number of declared
types are theirs alone. -/
theorem declaredBase_eq (h : m.Indexed) (hfits : m.size ≤ UInt32.size)
    (hdeclared : m.declared = types.length) (hnames : types.map TypeDecl.name <+: m.names)
    {type : TypeDecl} (hbase : TypeDecl.HasBase types type) :
    m.declaredBase type = .ok (type.base.map m.ids) := by
  unfold declaredBase
  cases hcase : type.base with
  | none => rfl
  | some base =>
    obtain ⟨position, hposition⟩ := List.mem_iff_getElem?.mp (hbase base hcase)
    obtain ⟨hlt, _⟩ := List.getElem?_eq_some_iff.mp hposition
    have hname : m.names[position]? = some base := by
      rw [List.prefix_iff_getElem?.mp hnames position hlt, ← hposition,
        List.getElem?_eq_getElem hlt]
    have hid : m.idOf? base = some (m.ids base) := h.idOf?_of_mem (List.mem_of_getElem? hname)
    have hbelow : (m.ids base).toNat < m.declared := by
      rw [h.toNat_ids hfits hname, hdeclared]
      simpa using hlt
    simp only [hid, Option.filter_some, hbelow, decide_true, if_true, Option.map_some]

theorem declaredBase_eq_error (h : m.Indexed) (hfits : m.size ≤ UInt32.size)
    (hdeclared : m.declared = types.length) (hnames : types.map TypeDecl.name <+: m.names)
    {type : TypeDecl} {base : String} (hcase : type.base = some base)
    (hnot : base ∉ types.map TypeDecl.name) :
    m.declaredBase type = .error (.undeclaredBase type.name base) := by
  unfold declaredBase
  rw [hcase]
  have hnone : ((m.idOf? base).filter fun id => id.toNat < m.declared) = none := by
    rw [Option.filter_eq_none_iff]
    intro id hid
    obtain ⟨position, hposition, rfl⟩ := h.idOf?_eq_some_iff.mp hid
    have hid : (UInt32.ofNat position).toNat = position := by
      rw [← h.ids_eq_ofNat hposition, h.toNat_ids hfits hposition]
    simp only [hid, hdeclared, decide_eq_true_eq, not_lt]
    by_contra hlt
    have hlt : position < (types.map TypeDecl.name).length := by simpa using hlt
    rw [List.prefix_iff_getElem?.mp hnames position hlt] at hposition
    exact hnot (Option.some.inj hposition ▸ List.getElem_mem hlt)
  simp only [hnone]

/-- Filling in a type makes its entry what its declaration says. -/
theorem Reads.fill {done : List TypeDecl} (h : m.Reads done) (hm : m.Indexed)
    (hfits : m.size ≤ UInt32.size) {type : TypeDecl} (hmem : type.name ∈ m.names)
    (hnew : type.name ∉ done.map TypeDecl.name) {entry : TypeEntry}
    (hread : ∀ later : SymbolModel, m.Grown later → entry = type.read later.ids) :
    (m.fill (m.ids type.name) entry).Reads (done ++ [type]) := by
  obtain ⟨place, hplace⟩ := List.mem_iff_getElem?.mp hmem
  have hid : (m.ids type.name).toNat = place := hm.toNat_ids hfits hplace
  intro position found hfound later hlater
  have hlater : m.Grown later := grown_fill_iff.mp hlater
  rw [SymbolModel.fill, Array.getElem?_modify, hid] at hfound
  split at hfound
  · -- the entry that is filled in
    rename_i heq
    subst heq
    obtain ⟨bare, hbare, rfl⟩ := Option.map_eq_some_iff.mp hfound
    have hname : bare.name = type.name := by
      have hnames : m.names[place]? = some bare.name := by rw [getElem?_names, hbare]; rfl
      exact Option.some.inj (hnames.symm.trans hplace)
    change ({ entry with name := bare.name } : TypeEntry) =
      (TypeDecl.find (done ++ [type]) bare.name).read later.ids
    rw [hname, TypeDecl.find_append_self hnew, hread later hlater]
    rfl
  · -- another entry, which is of another name since names are distinct
    rename_i hne
    have hother : found.name ≠ type.name := by
      intro heq
      have hnames : m.names[position]? = some type.name := by
        rw [getElem?_names, hfound, ← heq]; rfl
      obtain ⟨hlt, _⟩ := List.getElem?_eq_some_iff.mp hplace
      exact hne ((List.getElem?_inj hlt hm.nodup).mp (hplace.trans hnames.symm))
    rw [TypeDecl.find_append_of_ne hother]
    exact h position found hfound later hlater

/-- The names in an arena are names in the declarations. -/
theorem Indexed.size_le_of_mentioned (h : m.Indexed) {done : List TypeDecl} (hdone : done ⊆ types)
    (hnames : ∀ name ∈ m.names,
      name ∈ types.map TypeDecl.name ∨ name ∈ done.flatMap TypeDecl.mentioned) :
    m.size ≤ (types.flatMap TypeDecl.names).toFinset.card := by
  apply h.size_le
  intro name hmem
  rcases hnames name hmem with hdeclared | hmentioned
  · obtain ⟨type, htype, rfl⟩ := List.mem_map.mp hdeclared
    exact List.mem_flatMap.mpr ⟨type, htype, List.mem_cons_self⟩
  · obtain ⟨type, htype, hname⟩ := List.mem_flatMap.mp hmentioned
    exact List.mem_flatMap.mpr ⟨type, hdone htype, List.mem_append_right _ hname⟩

theorem run_internRef_of_mem (h : m.Indexed) {name : String} (hmem : name ∈ m.names) :
    (internRef name).run m = (.named m.ids name, m) := by
  have hinterns := Interns.internRef name
  have hmeet : m.meetAll [name] = m := h.meet_of_mem hmem
  exact Prod.ext (hinterns.value_eq m m h (hmeet.symm ▸ .refl h))
    ((hinterns.state_eq m).trans hmeet)

/-- The entry made for a declared type whose base is known. -/
theorem exists_run_declaredEntry (h : m.Indexed) {type : TypeDecl} (hmem : type.name ∈ m.names)
    (hbase : ∀ base, type.base = some base → base ∈ m.names) :
    ∃ entry,
      (declaredEntry (.named m.ids type.name) (type.base.map m.ids) type).run m =
        (entry, m.meetAll type.mentioned) ∧
      ∀ later, (m.meetAll type.mentioned).Grown later → entry = type.read later.ids := by
  let owner : TypeRef := .named m.ids type.name
  have hinterns := interns_declaredEntry owner (type.base.map m.ids) type
  refine ⟨_, Prod.ext rfl (hinterns.state_eq m), ?_⟩
  intro later hlater
  have hsame : ∀ name ∈ m.names, later.ids name = m.ids name := fun name hmem =>
    ((h.grown_meetAll type.mentioned).trans hlater).ids_eq h (h.idOf?_of_mem hmem)
  have howner : owner = .named later.ids type.name :=
    congrArg (TypeRef.mk · type.name) (hsame type.name hmem).symm
  have hbases : type.base.map m.ids = type.base.map later.ids := by
    cases hcase : type.base with
    | none => rfl
    | some base => exact congrArg some (hsame base (hbase base hcase)).symm
  refine (hinterns.value_eq m later h hlater).trans ?_
  rw [howner, hbases]
  rfl

variable {done rest : List TypeDecl} {type : TypeDecl}

theorem Filling.size_le (h : Filling types done m)
    (hfits : (types.flatMap TypeDecl.names).toFinset.card ≤ UInt32.size) (hdone : done ⊆ types) :
    m.size ≤ UInt32.size :=
  (h.indexed.size_le_of_mentioned hdone fun name => (h.mem_names_iff name).mp).trans hfits

theorem Filling.mem_names (h : Filling types done m) (hmem : type ∈ types) :
    type.name ∈ m.names :=
  h.names_prefix.subset (List.mem_map_of_mem hmem)

theorem Filling.exists_declare_eq_ok (h : Filling types done m) (hsize : m.size ≤ UInt32.size)
    (hmem : type ∈ types) (hbase : TypeDecl.HasBase types type) :
    ∃ entry,
      m.declare type = .ok ((m.meetAll type.mentioned).fill
        ((m.meetAll type.mentioned).ids type.name) entry) ∧
      ∀ later, (m.meetAll type.mentioned).Grown later → entry = type.read later.ids := by
  have hname : type.name ∈ m.names := h.mem_names hmem
  obtain ⟨entry, hrun, hread⟩ := exists_run_declaredEntry h.indexed hname fun base hcase =>
    h.names_prefix.subset (hbase base hcase)
  -- the place of the type was looked up before the names that it mentions were met
  have hid : (m.meetAll type.mentioned).ids type.name = m.ids type.name :=
    (h.indexed.grown_meetAll type.mentioned).ids_eq h.indexed (h.indexed.idOf?_of_mem hname)
  refine ⟨entry, ?_, hread⟩
  unfold SymbolModel.declare
  rw [run_internRef_of_mem h.indexed hname, hid]
  simp only [declaredBase_eq h.indexed hsize h.declared_eq h.names_prefix hbase, hrun]
  rfl

theorem Filling.declare (h : Filling types done m)
    (hfits : (types.flatMap TypeDecl.names).toFinset.card ≤ UInt32.size)
    (hnodup : (types.map TypeDecl.name).Nodup) (hsplit : types = done ++ type :: rest)
    (hbase : TypeDecl.HasBase types type) :
    ∃ later, m.declare type = .ok later ∧ Filling types (done ++ [type]) later := by
  have hdone : done ++ [type] ⊆ types := by
    rw [hsplit, List.append_cons done type rest]
    exact List.subset_append_left _ _
  have hearlier : done ⊆ types := fun other hmem => hdone (List.mem_append_left _ hmem)
  have hmem : type ∈ types := hdone (by simp)
  have hnew : type.name ∉ done.map TypeDecl.name := by
    intro hold
    rw [hsplit, List.map_append, List.nodup_append] at hnodup
    exact hnodup.2.2 _ hold _ (by simp) rfl
  obtain ⟨entry, hdeclare, hread⟩ := h.exists_declare_eq_ok (h.size_le hfits hearlier) hmem hbase
  obtain ⟨fresh, hextends, _⟩ := h.indexed.exists_extends_meetAll type.mentioned
  let met : SymbolModel := m.meetAll type.mentioned
  have hmet : met.Indexed := hextends.indexed
  have hnames : ∀ name, name ∈ met.names ↔
      name ∈ types.map TypeDecl.name ∨ name ∈ (done ++ [type]).flatMap TypeDecl.mentioned := by
    intro name
    rw [h.indexed.mem_names_meetAll_iff, h.mem_names_iff]
    simp [or_assoc]
  have hmetSize : met.size ≤ UInt32.size :=
    (hmet.size_le_of_mentioned hdone fun name => (hnames name).mp).trans hfits
  have hreads : met.Reads done := h.reads.extend
    (fun name hname => h.names_prefix.subset (List.map_subset _ hearlier hname)) hextends
  have hplace : type.name ∈ met.names := hextends.grown.names_prefix.subset (h.mem_names hmem)
  refine ⟨_, hdeclare, ?_⟩
  exact {
    indexed := hmet.fill _ _
    declared_eq := hextends.declared_eq.trans h.declared_eq
    references_eq := hextends.references_eq.trans h.references_eq
    names_prefix := by
      rw [names_fill]
      exact h.names_prefix.trans hextends.grown.names_prefix
    mem_names_iff := by
      rw [names_fill]
      exact hnames
    reads := hreads.fill hmet hmetSize hplace hnew hread }

theorem Filling.declare_eq_error (h : Filling types done m)
    (hfits : (types.flatMap TypeDecl.names).toFinset.card ≤ UInt32.size) (hdone : done ⊆ types)
    (hmem : type ∈ types) {base : String} (hcase : type.base = some base)
    (hnot : base ∉ types.map TypeDecl.name) :
    m.declare type = .error (.undeclaredBase type.name base) := by
  unfold SymbolModel.declare
  rw [run_internRef_of_mem h.indexed (h.mem_names hmem)]
  simp only [declaredBase_eq_error h.indexed (h.size_le hfits hdone) h.declared_eq h.names_prefix
    hcase hnot]

theorem Filling.exists_foldlM_declare (h : Filling types done m)
    (hfits : (types.flatMap TypeDecl.names).toFinset.card ≤ UInt32.size)
    (hnodup : (types.map TypeDecl.name).Nodup) (hsplit : types = done ++ rest)
    (hbases : ∀ type ∈ rest, TypeDecl.HasBase types type) :
    ∃ later, rest.foldlM SymbolModel.declare m = .ok later ∧ Filling types types later := by
  induction rest generalizing done m with
  | nil =>
    rw [List.append_nil] at hsplit
    exact ⟨m, rfl, hsplit ▸ h⟩
  | cons type rest ih =>
    obtain ⟨middle, hdeclare, hmiddle⟩ := h.declare hfits hnodup hsplit (hbases type (by simp))
    obtain ⟨later, hrest, hlater⟩ := ih hmiddle (by simpa using hsplit) fun other hother =>
      hbases other (by simp [hother])
    refine ⟨later, ?_, hlater⟩
    rw [List.foldlM_cons, hdeclare]
    exact hrest

/-- The first declaration whose base is not declared is refused. -/
theorem Filling.exists_foldlM_declare_eq_error (h : Filling types done m)
    (hfits : (types.flatMap TypeDecl.names).toFinset.card ≤ UInt32.size)
    (hnodup : (types.map TypeDecl.name).Nodup) (hsplit : types = done ++ rest)
    (hbases : ¬ ∀ type ∈ rest, TypeDecl.HasBase types type) :
    ∃ before type after base, rest = before ++ type :: after ∧
      (∀ other ∈ before, TypeDecl.HasBase types other) ∧ type.base = some base ∧
      base ∉ types.map TypeDecl.name ∧
      rest.foldlM SymbolModel.declare m = .error (.undeclaredBase type.name base) := by
  induction rest generalizing done m with
  | nil => exact absurd (by simp) hbases
  | cons type rest ih =>
    by_cases hbase : TypeDecl.HasBase types type
    · obtain ⟨middle, hdeclare, hmiddle⟩ := h.declare hfits hnodup hsplit hbase
      obtain ⟨before, other, after, base, rfl, hbefore, hcase, hnot, hrest⟩ :=
        ih hmiddle (by simpa using hsplit) fun hall => hbases fun other hother =>
          (List.mem_cons.mp hother).elim (fun heq => heq ▸ hbase) (hall other)
      refine ⟨type :: before, other, after, base, rfl, ?_, hcase, hnot, ?_⟩
      · intro earlier hearlier
        exact (List.mem_cons.mp hearlier).elim (fun heq => heq ▸ hbase) (hbefore earlier)
      · rw [List.foldlM_cons, hdeclare]
        exact hrest
    · obtain ⟨base, hbase⟩ := not_forall.mp hbase
      obtain ⟨hcase, hnot⟩ := Classical.not_imp.mp hbase
      refine ⟨[], type, rest, base, rfl, by simp, hcase, hnot, ?_⟩
      rw [List.foldlM_cons, h.declare_eq_error hfits (by simp [hsplit]) (by simp [hsplit]) hcase hnot]
      rfl

end Filling

end SymbolModel
end Wiring
