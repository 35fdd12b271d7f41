import Mathlib.Data.List.Nodup
import Mathlib.Data.Finset.Card
import Wiring.Model.Arena

/-! Interning. The names of an arena are distinct and the index holds each under its position, so a
name keeps its identity while the arena grows. Whatever is built by interning is therefore a
function of the identities that the names have in the end. -/
namespace Wiring

theorem identities_concat (names : List String) (name : String) :
    identities (names ++ [name]) = (name, UInt32.ofNat names.length) :: identities names := by
  simp [identities, List.zipIdx_append]

theorem lookup_identities_eq_some_iff {names : List String} (h : names.Nodup) {name : String}
    {id : SymbolId} :
    (identities names).lookup name = some id ↔
      ∃ position, names[position]? = some name ∧ id = UInt32.ofNat position := by
  induction names using List.reverseRecOn with
  | nil => simp [identities]
  | append_singleton names last ih =>
    obtain ⟨hnames, _, hlast⟩ := List.nodup_append.mp h
    rw [identities_concat, List.lookup_cons]
    by_cases heq : name = last
    · subst heq
      have hnew : ∀ position, names[position]? ≠ some name := fun position hmem =>
        hlast name (List.mem_of_getElem? hmem) name (by simp) rfl
      simp only [beq_self_eq_true, Option.some.injEq]
      constructor
      · rintro rfl
        exact ⟨names.length, by simp, rfl⟩
      · rintro ⟨position, hposition, rfl⟩
        rcases Nat.lt_trichotomy position names.length with hlt | rfl | hgt
        · rw [List.getElem?_append_left hlt] at hposition
          exact absurd hposition (hnew position)
        · rfl
        · rw [List.getElem?_eq_none (by simp; omega)] at hposition
          contradiction
    · have hbeq : (name == last) = false := by simpa using heq
      rw [hbeq, ih hnames]
      constructor
      · rintro ⟨position, hposition, rfl⟩
        obtain ⟨hlt, _⟩ := List.getElem?_eq_some_iff.mp hposition
        exact ⟨position, by rw [List.getElem?_append_left hlt, hposition], rfl⟩
      · rintro ⟨position, hposition, rfl⟩
        rcases Nat.lt_or_ge position names.length with hlt | hge
        · exact ⟨position, by rwa [List.getElem?_append_left hlt] at hposition, rfl⟩
        · rw [List.getElem?_append_right hge] at hposition
          obtain ⟨_, hlast⟩ := List.getElem?_eq_some_iff.mp hposition
          exact absurd (by simpa using hlast.symm) heq

namespace SymbolModel

/-- Names of the types, by position. -/
def names (m : SymbolModel) : List String := m.types.toList.map TypeEntry.name

/-- The identity of a name that the model holds. -/
def ids (m : SymbolModel) (name : String) : SymbolId := (m.idOf? name).getD 0

/-- Every name has one place, and the index knows it. -/
structure Indexed (m : SymbolModel) : Prop where
  index_eq : m.index = identities m.names
  nodup : m.names.Nodup

/-- A later state of the arena. -/
structure Grown (m later : SymbolModel) : Prop where
  indexed : later.Indexed
  names_prefix : m.names <+: later.names

theorem length_names (m : SymbolModel) : m.names.length = m.size := by
  simp [names, size]

theorem getElem?_names (m : SymbolModel) (position : Nat) :
    m.names[position]? = (m.types[position]?).map TypeEntry.name := by
  simp [names]

theorem indexed_empty : Indexed {} := ⟨rfl, List.nodup_nil⟩

section Identities

variable {m later : SymbolModel} {name : String} {id : SymbolId}

theorem Indexed.idOf?_eq_some_iff (h : m.Indexed) :
    m.idOf? name = some id ↔
      ∃ position, m.names[position]? = some name ∧ id = UInt32.ofNat position := by
  unfold idOf?
  rw [h.index_eq]
  exact lookup_identities_eq_some_iff h.nodup

theorem Indexed.mem_names_iff (h : m.Indexed) :
    name ∈ m.names ↔ ∃ id, m.idOf? name = some id := by
  rw [List.mem_iff_getElem?]
  constructor
  · rintro ⟨position, hposition⟩
    exact ⟨_, h.idOf?_eq_some_iff.mpr ⟨position, hposition, rfl⟩⟩
  · rintro ⟨id, hid⟩
    obtain ⟨position, hposition, _⟩ := h.idOf?_eq_some_iff.mp hid
    exact ⟨position, hposition⟩

theorem Indexed.idOf?_eq_none_iff (h : m.Indexed) : m.idOf? name = none ↔ name ∉ m.names := by
  rw [h.mem_names_iff, Option.eq_none_iff_forall_not_mem]
  simp

theorem ids_eq_of_idOf? (h : m.idOf? name = some id) : m.ids name = id := by
  unfold ids
  rw [h, Option.getD_some]

theorem Indexed.idOf?_of_mem (h : m.Indexed) (hmem : name ∈ m.names) :
    m.idOf? name = some (m.ids name) := by
  obtain ⟨id, hid⟩ := h.mem_names_iff.mp hmem
  rw [ids_eq_of_idOf? hid, hid]

theorem Grown.refl (h : m.Indexed) : m.Grown m := ⟨h, List.prefix_rfl⟩

theorem Grown.trans {last : SymbolModel} (h : m.Grown later) (h' : later.Grown last) :
    m.Grown last :=
  ⟨h'.indexed, h.names_prefix.trans h'.names_prefix⟩

/-- A name keeps its identity. -/
theorem Grown.idOf?_eq (h : m.Grown later) (hm : m.Indexed) (hid : m.idOf? name = some id) :
    later.idOf? name = some id := by
  obtain ⟨position, hposition, rfl⟩ := hm.idOf?_eq_some_iff.mp hid
  obtain ⟨hlt, hname⟩ := List.getElem?_eq_some_iff.mp hposition
  refine h.indexed.idOf?_eq_some_iff.mpr ⟨position, ?_, rfl⟩
  rw [List.prefix_iff_getElem?.mp h.names_prefix position hlt, hname]

theorem Grown.ids_eq (h : m.Grown later) (hm : m.Indexed) (hid : m.idOf? name = some id) :
    later.ids name = id :=
  ids_eq_of_idOf? (h.idOf?_eq hm hid)

end Identities

/-! A name that is met for the first time is pushed; the entries that exist stay as they are. -/

section Growth

variable {m : SymbolModel}

theorem names_push (m : SymbolModel) (name : String) : (m.push name).names = m.names ++ [name] := by
  simp [names, push]

theorem Indexed.push (h : m.Indexed) {name : String} (hnew : name ∉ m.names) :
    (m.push name).Indexed := by
  constructor
  · rw [names_push, identities_concat, ← h.index_eq, length_names]
    rfl
  · rw [names_push]
    exact List.nodup_append.mpr ⟨h.nodup, List.nodup_singleton name, by
      intro a ha b hb
      rw [List.mem_singleton.mp hb]
      exact fun heq => hnew (heq ▸ ha)⟩

/-- The model once a name has been met. -/
def meet (m : SymbolModel) (name : String) : SymbolModel := ((intern name).run m).2

/-- The model once names have been met, in order. -/
def meetAll (m : SymbolModel) (names : List String) : SymbolModel := names.foldl meet m

theorem meetAll_cons (m : SymbolModel) (name : String) (names : List String) :
    m.meetAll (name :: names) = (m.meet name).meetAll names := rfl

theorem meetAll_append (m : SymbolModel) (names names' : List String) :
    m.meetAll (names ++ names') = (m.meetAll names).meetAll names' :=
  List.foldl_append

theorem run_intern_of_some {name : String} {id : SymbolId} (h : m.idOf? name = some id) :
    (intern name).run m = (id, m) := by
  change intern name m = (id, m)
  unfold intern
  rw [h]

theorem run_intern_of_none {name : String} (h : m.idOf? name = none) :
    (intern name).run m = (UInt32.ofNat m.types.size, m.push name) := by
  change intern name m = (UInt32.ofNat m.types.size, m.push name)
  unfold intern
  rw [h]

theorem Indexed.meet_of_mem (h : m.Indexed) {name : String} (hmem : name ∈ m.names) :
    m.meet name = m := by
  unfold meet
  rw [run_intern_of_some (h.idOf?_of_mem hmem)]

theorem Indexed.meet_of_not_mem (h : m.Indexed) {name : String} (hnew : name ∉ m.names) :
    m.meet name = m.push name := by
  unfold meet
  rw [run_intern_of_none (h.idOf?_eq_none_iff.mpr hnew)]

/-- `later` is `m` with bare types at the end, one for each of `fresh`. -/
structure Extends (m : SymbolModel) (fresh : List String) (later : SymbolModel) : Prop where
  indexed : later.Indexed
  types_eq : later.types.toList = m.types.toList ++ fresh.map fun name => ({ name } : TypeEntry)
  references_eq : later.references = m.references
  declared_eq : later.declared = m.declared

theorem Extends.names_eq {later : SymbolModel} {fresh : List String} (h : m.Extends fresh later) :
    later.names = m.names ++ fresh := by
  unfold names
  rw [h.types_eq, List.map_append, List.map_map]
  congr 1
  exact List.map_id fresh

theorem Extends.grown {later : SymbolModel} {fresh : List String} (h : m.Extends fresh later) :
    m.Grown later :=
  ⟨h.indexed, h.names_eq ▸ List.prefix_append _ _⟩

theorem Indexed.extends_self (h : m.Indexed) : m.Extends [] m :=
  ⟨h, by simp, rfl, rfl⟩

theorem Extends.trans {later last : SymbolModel} {fresh fresh' : List String}
    (h : m.Extends fresh later) (h' : later.Extends fresh' last) :
    m.Extends (fresh ++ fresh') last where
  indexed := h'.indexed
  types_eq := by rw [h'.types_eq, h.types_eq, List.map_append, List.append_assoc]
  references_eq := h'.references_eq.trans h.references_eq
  declared_eq := h'.declared_eq.trans h.declared_eq

theorem Indexed.extends_push (h : m.Indexed) {name : String} (hnew : name ∉ m.names) :
    m.Extends [name] (m.push name) :=
  ⟨h.push hnew, by simp [SymbolModel.push], rfl, rfl⟩

/-- Meeting names adds those that the model does not hold. -/
theorem Indexed.exists_extends_meetAll (h : m.Indexed) (mentioned : List String) :
    ∃ fresh, m.Extends fresh (m.meetAll mentioned) ∧
      ∀ name, name ∈ fresh ↔ name ∈ mentioned ∧ name ∉ m.names := by
  induction mentioned generalizing m with
  | nil => exact ⟨[], h.extends_self, by simp⟩
  | cons name rest ih =>
    rw [meetAll_cons]
    by_cases hmem : name ∈ m.names
    · rw [h.meet_of_mem hmem]
      obtain ⟨fresh, hextends, hfresh⟩ := ih h
      refine ⟨fresh, hextends, fun other => ?_⟩
      rw [hfresh, List.mem_cons]
      constructor
      · exact fun ⟨hrest, hnew⟩ => ⟨.inr hrest, hnew⟩
      · rintro ⟨rfl | hrest, hnew⟩
        · exact absurd hmem hnew
        · exact ⟨hrest, hnew⟩
    · rw [h.meet_of_not_mem hmem]
      obtain ⟨fresh, hextends, hfresh⟩ := ih (h.push hmem)
      refine ⟨name :: fresh, (h.extends_push hmem).trans hextends, fun other => ?_⟩
      rw [List.mem_cons, List.mem_cons, hfresh, names_push, List.mem_append, List.mem_singleton]
      constructor
      · rintro (rfl | ⟨hrest, hnew⟩)
        · exact ⟨.inl rfl, hmem⟩
        · exact ⟨.inr hrest, fun hold => hnew (.inl hold)⟩
      · rintro ⟨rfl | hrest, hnew⟩
        · exact .inl rfl
        · by_cases heq : other = name
          · exact .inl heq
          · exact .inr ⟨hrest, fun hold => hold.elim hnew heq⟩

theorem Indexed.meetAll (h : m.Indexed) (mentioned : List String) :
    (m.meetAll mentioned).Indexed :=
  let ⟨_, hextends, _⟩ := h.exists_extends_meetAll mentioned
  hextends.indexed

theorem Indexed.grown_meetAll (h : m.Indexed) (mentioned : List String) :
    m.Grown (m.meetAll mentioned) :=
  let ⟨_, hextends, _⟩ := h.exists_extends_meetAll mentioned
  hextends.grown

theorem Indexed.mem_names_meetAll_iff (h : m.Indexed) (mentioned : List String) {name : String} :
    name ∈ (m.meetAll mentioned).names ↔ name ∈ m.names ∨ name ∈ mentioned := by
  obtain ⟨fresh, hextends, hfresh⟩ := h.exists_extends_meetAll mentioned
  rw [hextends.names_eq, List.mem_append, hfresh]
  tauto

end Growth

/-! Actions that intern names, and what they give as a function of identities. -/

/-- `action` meets the names `mentioned` and nothing else happens to the model; what it gives is
`value` of the identities that names have in any later state. -/
structure Interns {α : Type} (action : StateM SymbolModel α) (mentioned : List String)
    (value : (String → SymbolId) → α) : Prop where
  state_eq : ∀ m, (action.run m).2 = m.meetAll mentioned
  value_eq : ∀ m later : SymbolModel, m.Indexed → (m.meetAll mentioned).Grown later →
    (action.run m).1 = value later.ids

namespace Interns

variable {α β : Type}

theorem pure (a : α) : Interns (Pure.pure a) [] fun _ => a :=
  ⟨fun _ => rfl, fun _ _ _ _ => rfl⟩

theorem bind {x : StateM SymbolModel α} {mentioned : List String}
    {value : (String → SymbolId) → α} (hx : Interns x mentioned value)
    {f : α → StateM SymbolModel β} {mentioned' : List String}
    {value' : α → (String → SymbolId) → β} (hf : ∀ a, Interns (f a) mentioned' (value' a)) :
    Interns (x >>= f) (mentioned ++ mentioned') fun ids => value' (value ids) ids where
  state_eq m := by
    change ((f (x.run m).1).run (x.run m).2).2 = _
    rw [(hf _).state_eq, hx.state_eq, meetAll_append]
  value_eq m later hm hlater := by
    rw [meetAll_append] at hlater
    have hmiddle : (m.meetAll mentioned).Indexed := hm.meetAll mentioned
    have hvalue : (x.run m).1 = value later.ids :=
      hx.value_eq m later hm ((hmiddle.grown_meetAll mentioned').trans hlater)
    change ((f (x.run m).1).run (x.run m).2).1 = _
    rw [hx.state_eq, hvalue]
    exact (hf _).value_eq _ later hmiddle hlater

/-- As `bind`, where the second action says nothing of names. -/
theorem map {x : StateM SymbolModel α} {mentioned : List String}
    {value : (String → SymbolId) → α} (hx : Interns x mentioned value) (f : α → β) :
    Interns (f <$> x) mentioned fun ids => f (value ids) where
  state_eq m := hx.state_eq m
  value_eq m later hm hlater := congrArg f (hx.value_eq m later hm hlater)

theorem intern (name : String) : Interns (intern name) [name] fun ids => ids name where
  state_eq _ := rfl
  value_eq m later hm hlater := by
    rw [meetAll_cons] at hlater
    cases hid : m.idOf? name with
    | some id =>
      rw [run_intern_of_some hid]
      exact (((hm.grown_meetAll [name]).trans hlater).ids_eq hm hid).symm
    | none =>
      -- the identity given out now is the one that the pushed name keeps
      have hnew : name ∉ m.names := hm.idOf?_eq_none_iff.mp hid
      rw [hm.meet_of_not_mem hnew] at hlater
      have hlast : (m.push name).idOf? name = some (UInt32.ofNat m.types.size) := by
        simp [idOf?, SymbolModel.push]
      rw [run_intern_of_none hid]
      exact (hlater.ids_eq (hm.push hnew) hlast).symm

theorem internRef (name : String) : Interns (internRef name) [name] fun ids => ⟨ids name, name⟩ :=
  (intern name).map fun id => (⟨id, name⟩ : TypeRef)

theorem mapM {f : α → StateM SymbolModel β} {mentioned : α → List String}
    {value : α → (String → SymbolId) → β} (hf : ∀ a, Interns (f a) (mentioned a) (value a))
    (items : List α) :
    Interns (items.mapM f) (items.flatMap mentioned) fun ids => items.map (value · ids) := by
  induction items with
  | nil => exact pure []
  | cons a rest ih =>
    rw [List.mapM_cons, List.flatMap_cons]
    exact (hf a).bind fun b => ih.map (b :: ·)

theorem optionMapM {f : α → StateM SymbolModel β} {mentioned : α → List String}
    {value : α → (String → SymbolId) → β} (hf : ∀ a, Interns (f a) (mentioned a) (value a))
    (item : Option α) :
    Interns (item.mapM f) (item.toList.flatMap mentioned) fun ids => item.map (value · ids) := by
  cases item with
  | none => exact pure none
  | some a =>
    rw [Option.toList_some, List.flatMap_singleton]
    exact (hf a).map some

end Interns
end SymbolModel
end Wiring
