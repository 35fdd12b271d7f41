import Wiring.Proofs.Model.Building
import Wiring.Proofs.Model.Inheritance

/-! Which documents are models. The names of the declared types have to be distinct, every base has
to be declared, and no type may derive from itself; whether that holds does not depend on the order
in which types are declared and names are met. -/
namespace Wiring

namespace TypeDecl

/-- The type called `name` is declared with the base `base`. -/
def Derives (types : List TypeDecl) (name base : String) : Prop :=
  ∃ type ∈ types, type.name = name ∧ type.base = some base

/-- Declarations that together make a model. -/
structure WellFormed (types : List TypeDecl) : Prop where
  distinct : (types.map TypeDecl.name).Nodup
  bases : ∀ type ∈ types, HasBase types type
  acyclic : ∀ name, ¬ Relation.TransGen (Derives types) name name

theorem find_mem_of_base {types : List TypeDecl} {name base : String}
    (h : (find types name).base = some base) : find types name ∈ types := by
  by_cases hmem : name ∈ types.map TypeDecl.name
  · unfold find
    cases hfind : types.find? fun type => type.name == name with
    | none =>
      obtain ⟨type, htype, hname⟩ := List.mem_map.mp hmem
      exact absurd (by simpa using hname) (List.find?_eq_none.mp hfind type htype)
    | some type => exact List.mem_of_find?_eq_some hfind
  · rw [find_eq_bare hmem] at h
    contradiction

end TypeDecl

namespace SymbolModel

variable {m : SymbolModel} {types : List TypeDecl}

/-- The arena holds what the declarations say: every entry is the reading of the declaration of its
name, and every name that a declaration mentions has an entry. -/
structure Represents (m : SymbolModel) (types : List TypeDecl) : Prop where
  indexed : m.Indexed
  fits : m.size ≤ UInt32.size
  declared_eq : m.declared = types.length
  names_prefix : types.map TypeDecl.name <+: m.names
  mentioned : ∀ type ∈ types, ∀ name ∈ type.mentioned, name ∈ m.names
  bases : ∀ type ∈ types, TypeDecl.HasBase types type
  reads : m.Reads types

namespace Represents

theorem mem_names (h : m.Represents types) {type : TypeDecl} (hmem : type ∈ types) {name : String}
    (hname : name ∈ type.names) : name ∈ m.names := by
  have hdeclared : ∀ name ∈ types.map TypeDecl.name, name ∈ m.names := fun name hname =>
    h.names_prefix.subset hname
  rcases List.mem_append.mp hname with hown | hmentioned
  · rcases List.mem_cons.mp hown with rfl | hbase
    · exact hdeclared _ (List.mem_map_of_mem hmem)
    · exact hdeclared name (h.bases type hmem name (Option.mem_toList.mp hbase))
  · exact h.mentioned type hmem name hmentioned

theorem entry_eq (h : m.Represents types) {position : Nat} {entry : TypeEntry}
    (hentry : m.types[position]? = some entry) :
    entry = (TypeDecl.find types entry.name).read m.ids :=
  h.reads position entry hentry m (.refl h.indexed)

theorem distinct (h : m.Represents types) : (types.map TypeDecl.name).Nodup :=
  h.names_prefix.sublist.nodup h.indexed.nodup

theorem exists_entry (h : m.Represents types) {name : String} (hname : name ∈ m.names) :
    m.types[(m.ids name).toNat]? = some ((TypeDecl.find types name).read m.ids) := by
  obtain ⟨position, hposition⟩ := List.mem_iff_getElem?.mp hname
  rw [h.indexed.toNat_ids h.fits hposition]
  rw [getElem?_names, Option.map_eq_some_iff] at hposition
  obtain ⟨entry, hentry, rfl⟩ := hposition
  rw [hentry, ← h.entry_eq hentry]

theorem derives_of_link (h : m.Represents types) {position above : Nat}
    (hlink : m.Link position above) :
    ∃ name base, m.names[position]? = some name ∧ m.names[above]? = some base ∧
      TypeDecl.Derives types name base := by
  obtain ⟨entry, id, hentry, hid, rfl⟩ := hlink
  rw [h.entry_eq hentry] at hid
  obtain ⟨base, hbase, rfl⟩ := Option.map_eq_some_iff.mp hid
  have hmem : TypeDecl.find types entry.name ∈ types := TypeDecl.find_mem_of_base hbase
  have hname : base ∈ m.names := h.names_prefix.subset (h.bases _ hmem base hbase)
  refine ⟨entry.name, base, by rw [getElem?_names, hentry]; rfl, ?_,
    ⟨_, hmem, TypeDecl.name_find types entry.name, hbase⟩⟩
  rw [getElem?_names, h.exists_entry hname, Option.map_some]
  exact congrArg some (TypeDecl.name_find types base)

theorem link_of_derives (h : m.Represents types) {name base : String}
    (hderives : TypeDecl.Derives types name base) :
    m.Link (m.ids name).toNat (m.ids base).toNat := by
  obtain ⟨type, hmem, rfl, hbase⟩ := hderives
  have hentry := h.exists_entry (h.mem_names hmem List.mem_cons_self)
  rw [TypeDecl.find_of_mem h.distinct hmem] at hentry
  exact ⟨_, m.ids base, hentry, congrArg (Option.map m.ids) hbase, rfl⟩

theorem derives_of_transGen_link (h : m.Represents types) {position above : Nat}
    (hlinks : Relation.TransGen m.Link position above) :
    ∃ name base, m.names[position]? = some name ∧ m.names[above]? = some base ∧
      Relation.TransGen (TypeDecl.Derives types) name base := by
  induction hlinks with
  | single hlink =>
    obtain ⟨name, base, hname, hbase, hderives⟩ := h.derives_of_link hlink
    exact ⟨name, base, hname, hbase, .single hderives⟩
  | tail _ hlink ih =>
    obtain ⟨name, middle, hname, hmiddle, hpath⟩ := ih
    obtain ⟨middle', base, hmiddle', hbase, hderives⟩ := h.derives_of_link hlink
    obtain rfl : middle = middle' := Option.some.inj (hmiddle.symm.trans hmiddle')
    exact ⟨name, base, hname, hbase, hpath.tail hderives⟩

/-- Positions are above themselves exactly when declarations derive from themselves. -/
theorem acyclic_iff (h : m.Represents types) :
    m.Acyclic ↔ ∀ name, ¬ Relation.TransGen (TypeDecl.Derives types) name name := by
  constructor
  · intro hacyclic name hcycle
    exact hacyclic (m.ids name).toNat
      (hcycle.lift (fun name => (m.ids name).toNat) fun _ _ => h.link_of_derives)
  · intro hacyclic position hcycle
    obtain ⟨name, base, hname, hbase, hpath⟩ := h.derives_of_transGen_link hcycle
    obtain rfl : name = base := Option.some.inj (hname.symm.trans hbase)
    exact hacyclic name hpath

theorem basesInRange (h : m.Represents types) : m.BasesInRange := by
  intro position above hlink
  obtain ⟨_, base, _, hbase, _⟩ := h.derives_of_link hlink
  obtain ⟨hlt, _⟩ := List.getElem?_eq_some_iff.mp hbase
  rwa [length_names] at hlt

/-- Names that are met later and are not declared change nothing. -/
theorem extend (h : m.Represents types) {fresh : List String} {later : SymbolModel}
    (hextends : m.Extends fresh later) (hfits : later.size ≤ UInt32.size) : later.Represents types where
  indexed := hextends.indexed
  fits := hfits
  declared_eq := hextends.declared_eq.trans h.declared_eq
  names_prefix := h.names_prefix.trans hextends.grown.names_prefix
  mentioned type htype name hname :=
    hextends.grown.names_prefix.subset (h.mentioned type htype name hname)
  bases := h.bases
  reads := h.reads.extend (fun _ hname => h.names_prefix.subset hname) hextends

end Represents

theorem Filling.represents (h : Filling types types m)
    (hfits : (types.flatMap TypeDecl.names).toFinset.card ≤ UInt32.size)
    (hbases : ∀ type ∈ types, TypeDecl.HasBase types type) : m.Represents types where
  indexed := h.indexed
  fits := h.size_le hfits (List.Subset.refl types)
  declared_eq := h.declared_eq
  names_prefix := h.names_prefix
  mentioned type htype name hname :=
    (h.mem_names_iff name).mpr (.inr (List.mem_flatMap.mpr ⟨type, htype, hname⟩))
  bases := hbases
  reads := h.reads

/-- The arena when all declared types have their places. -/
theorem exists_foldlM_announce_empty (hdistinct : (types.map TypeDecl.name).Nodup) :
    ∃ bare : SymbolModel, types.foldlM announce {} = .ok bare ∧
      Filling types [] { bare with declared := bare.size } := by
  have hnodup : (names {} ++ types.map TypeDecl.name).Nodup := hdistinct
  obtain ⟨bare, hbare, hextends⟩ := exists_foldlM_announce indexed_empty hnodup
  have hnames : bare.names = types.map TypeDecl.name := hextends.names_eq
  refine ⟨bare, hbare, ?_⟩
  exact {
    indexed := ⟨hextends.indexed.index_eq, hextends.indexed.nodup⟩
    declared_eq := by
      change bare.size = types.length
      rw [← length_names, hnames, List.length_map]
    references_eq := hextends.references_eq
    names_prefix := hnames ▸ List.prefix_rfl
    mem_names_iff := fun name => by
      change name ∈ bare.names ↔ _
      simp [hnames]
    reads := by
      have hempty : Reads {} [] := fun _ _ hentry => by simp at hentry
      exact (hempty.extend (List.nil_subset _) hextends).of_types_eq rfl }

section Verdict

variable {d : ModelDocument}

theorem ofDocument_of_not_nodup (h : ¬ (d.types.map TypeDecl.name).Nodup) :
    ∃ before type after, d.types = before ++ type :: after ∧
      (before.map TypeDecl.name).Nodup ∧ type.name ∈ before.map TypeDecl.name ∧
      ofDocument d = .error (.duplicateType type.name) := by
  have hrepeated : ¬ (names {} ++ d.types.map TypeDecl.name).Nodup := h
  obtain ⟨before, type, after, hsplit, hnodup, hmem, herror⟩ :=
    exists_foldlM_announce_eq_error indexed_empty hrepeated
  refine ⟨before, type, after, hsplit, hnodup, hmem, ?_⟩
  unfold ofDocument
  rw [herror]
  rfl

variable (hfits : (d.types.flatMap TypeDecl.names).toFinset.card ≤ UInt32.size)
include hfits

theorem ofDocument_of_not_hasBase (hdistinct : (d.types.map TypeDecl.name).Nodup)
    (h : ¬ ∀ type ∈ d.types, TypeDecl.HasBase d.types type) :
    ∃ before type after base, d.types = before ++ type :: after ∧
      (∀ other ∈ before, TypeDecl.HasBase d.types other) ∧ type.base = some base ∧
      base ∉ d.types.map TypeDecl.name ∧
      ofDocument d = .error (.undeclaredBase type.name base) := by
  obtain ⟨bare, hbare, hfilling⟩ := exists_foldlM_announce_empty hdistinct
  obtain ⟨before, type, after, base, hsplit, hbefore, hcase, hnot, herror⟩ :=
    hfilling.exists_foldlM_declare_eq_error hfits hdistinct rfl h
  refine ⟨before, type, after, base, hsplit, hbefore, hcase, hnot, ?_⟩
  unfold ofDocument
  simp only [hbare, bind, Except.bind, herror]

/-- The declared part of a model, before references are met. -/
theorem exists_declared (hdistinct : (d.types.map TypeDecl.name).Nodup)
    (hbases : ∀ type ∈ d.types, TypeDecl.HasBase d.types type) :
    ∃ m : SymbolModel, Filling d.types d.types m ∧
      ofDocument d = m.checkInheritance.map fun _ => ((d.references.forM refer).run m).2 := by
  obtain ⟨bare, hbare, hbegin⟩ := exists_foldlM_announce_empty hdistinct
  obtain ⟨m, hm, hfilling⟩ := hbegin.exists_foldlM_declare hfits hdistinct rfl hbases
  refine ⟨m, hfilling, ?_⟩
  unfold ofDocument
  simp only [hbare, bind, Except.bind, hm]
  cases m.checkInheritance <;> rfl

theorem ofDocument_of_cycle (hdistinct : (d.types.map TypeDecl.name).Nodup)
    (hbases : ∀ type ∈ d.types, TypeDecl.HasBase d.types type)
    (h : ∃ name, Relation.TransGen (TypeDecl.Derives d.types) name name) :
    ∃ type ∈ d.types, ∃ ancestor,
      Relation.TransGen (TypeDecl.Derives d.types) type.name ancestor ∧
      Relation.TransGen (TypeDecl.Derives d.types) ancestor ancestor ∧
      ofDocument d = .error (.inheritanceCycle type.name) := by
  obtain ⟨m, hfilling, hdocument⟩ := exists_declared hfits hdistinct hbases
  have hrepresents : m.Represents d.types := hfilling.represents hfits hbases
  obtain ⟨start, entry, again, hentry, hleads, hcycle, herror⟩ :=
    checkInheritance_of_not_acyclic fun hacyclic =>
      h.elim (hrepresents.acyclic_iff.mp hacyclic)
  obtain ⟨name, ancestor, hname, hancestor, hpath⟩ := hrepresents.derives_of_transGen_link hleads
  obtain ⟨left, right, hleft, hright, hround⟩ := hrepresents.derives_of_transGen_link hcycle
  obtain rfl : ancestor = left := Option.some.inj (hancestor.symm.trans hleft)
  obtain rfl : ancestor = right := Option.some.inj (hancestor.symm.trans hright)
  obtain rfl : entry.name = name := by
    rw [getElem?_names, hentry] at hname
    exact Option.some.inj hname
  obtain ⟨_, ⟨type, htype, hname, _⟩, _⟩ := Relation.TransGen.head'_iff.mp hpath
  rw [← hname] at hpath herror
  refine ⟨type, htype, ancestor, hpath, hround, ?_⟩
  rw [hdocument, herror]
  rfl

theorem exists_ofDocument_eq_ok (h : TypeDecl.WellFormed d.types) :
    ∃ m : SymbolModel, m.Represents d.types ∧ Filling d.types d.types m ∧
      ofDocument d = .ok ((d.references.forM refer).run m).2 := by
  obtain ⟨m, hfilling, hdocument⟩ := exists_declared hfits h.distinct h.bases
  have hrepresents : m.Represents d.types := hfilling.represents hfits h.bases
  refine ⟨m, hrepresents, hfilling, ?_⟩
  rw [hdocument, checkInheritance_of_acyclic (hrepresents.acyclic_iff.mpr h.acyclic)]
  rfl

theorem exists_ofDocument_eq_error (h : ¬ TypeDecl.WellFormed d.types) :
    ∃ failure, ofDocument d = .error failure ∧ failure.area = .model := by
  by_cases hdistinct : (d.types.map TypeDecl.name).Nodup
  · by_cases hbases : ∀ type ∈ d.types, TypeDecl.HasBase d.types type
    · by_cases hacyclic : ∀ name, ¬ Relation.TransGen (TypeDecl.Derives d.types) name name
      · exact absurd ⟨hdistinct, hbases, hacyclic⟩ h
      · obtain ⟨_, _, _, _, _, herror⟩ := ofDocument_of_cycle hfits hdistinct hbases
          (not_forall_not.mp hacyclic)
        exact ⟨_, herror, rfl⟩
    · obtain ⟨_, _, _, _, _, _, _, _, herror⟩ := ofDocument_of_not_hasBase hfits hdistinct hbases
      exact ⟨_, herror, rfl⟩
  · obtain ⟨_, _, _, _, _, _, herror⟩ := ofDocument_of_not_nodup hdistinct
    exact ⟨_, herror, rfl⟩

theorem wellFormed_of_ofDocument {m : SymbolModel} (h : ofDocument d = .ok m) :
    TypeDecl.WellFormed d.types := by
  by_contra hill
  obtain ⟨_, herror, _⟩ := exists_ofDocument_eq_error hfits hill
  rw [herror] at h
  contradiction

end Verdict

/-- A document, if there are identities for all names in it, is a model exactly when its declared
names are distinct, every base is declared and no type derives from itself. Otherwise the failure
tells of the declarations, of a repeated name rather than of a base, and of a base rather than of a
cycle; and on every arena, whatever its bases, the walks that look for a cycle come to an answer. -/
theorem ofDocument_verdict (d : ModelDocument)
    (hfits : (d.types.flatMap TypeDecl.names).toFinset.card ≤ UInt32.size) :
    ((∃ m, ofDocument d = .ok m) ↔
      (d.types.map TypeDecl.name).Nodup ∧
      (∀ type ∈ d.types, ∀ base, type.base = some base → base ∈ d.types.map TypeDecl.name) ∧
      ∀ name, ¬ Relation.TransGen (TypeDecl.Derives d.types) name name) ∧
    (∀ failure, ofDocument d = .error failure → failure.area = .model) ∧
    (¬ (d.types.map TypeDecl.name).Nodup →
      ∃ before type after, d.types = before ++ type :: after ∧
        (before.map TypeDecl.name).Nodup ∧ type.name ∈ before.map TypeDecl.name ∧
        ofDocument d = .error (.duplicateType type.name)) ∧
    ((d.types.map TypeDecl.name).Nodup →
      (¬ ∀ type ∈ d.types, ∀ base, type.base = some base → base ∈ d.types.map TypeDecl.name) →
      ∃ before type after base, d.types = before ++ type :: after ∧
        (∀ other ∈ before, ∀ base, other.base = some base → base ∈ d.types.map TypeDecl.name) ∧
        type.base = some base ∧ base ∉ d.types.map TypeDecl.name ∧
        ofDocument d = .error (.undeclaredBase type.name base)) ∧
    ((d.types.map TypeDecl.name).Nodup →
      (∀ type ∈ d.types, ∀ base, type.base = some base → base ∈ d.types.map TypeDecl.name) →
      (∃ name, Relation.TransGen (TypeDecl.Derives d.types) name name) →
      ∃ type ∈ d.types, ∃ ancestor,
        Relation.TransGen (TypeDecl.Derives d.types) type.name ancestor ∧
        Relation.TransGen (TypeDecl.Derives d.types) ancestor ancestor ∧
        ofDocument d = .error (.inheritanceCycle type.name)) ∧
    ∀ (m : SymbolModel) (start : Nat) (next : Option SymbolId), start < m.size →
      ∃ returns, m.returns? m.size [start] next = some returns := by
  refine ⟨⟨?_, ?_⟩, ?_, ofDocument_of_not_nodup, ofDocument_of_not_hasBase hfits,
    ofDocument_of_cycle hfits, ?_⟩
  · rintro ⟨m, hm⟩
    have hwell : TypeDecl.WellFormed d.types := wellFormed_of_ofDocument hfits hm
    exact ⟨hwell.distinct, hwell.bases, hwell.acyclic⟩
  · rintro ⟨hdistinct, hbases, hacyclic⟩
    obtain ⟨m, _, _, hok⟩ := exists_ofDocument_eq_ok hfits ⟨hdistinct, hbases, hacyclic⟩
    exact ⟨_, hok⟩
  · intro failure hfailure
    by_cases hwell : TypeDecl.WellFormed d.types
    · obtain ⟨_, _, _, hok⟩ := exists_ofDocument_eq_ok hfits hwell
      rw [hok] at hfailure
      contradiction
    · obtain ⟨_, herror, harea⟩ := exists_ofDocument_eq_error hfits hwell
      rwa [← Except.error.inj (herror.symm.trans hfailure)]
  · intro m start next hstart
    exact Option.ne_none_iff_exists'.mp (returns?_start_ne_none hstart next)

/-- A type that derives from one that an earlier constructor only mentions. -/
def mentionedBase : ModelDocument :=
  { types := [
      { name := "Test.Service"
        constructors := [{ parameters := [⟨"clock", "Test.Clock", none⟩] }] },
      { name := "Test.SystemClock", base := some "Test.Clock" }] }

theorem ofDocument_verdict_mentionedBase :
    (mentionedBase.types.flatMap TypeDecl.names).toFinset.card ≤ UInt32.size ∧
    "Test.Clock" ∈ mentionedBase.types.flatMap TypeDecl.mentioned ∧
    ¬ ∃ m, ofDocument mentionedBase = .ok m := by
  have hfits : (mentionedBase.types.flatMap TypeDecl.names).toFinset.card ≤ UInt32.size := by
    decide +kernel
  refine ⟨hfits, by decide +kernel, fun hok => ?_⟩
  obtain ⟨_, hbases, _⟩ := (ofDocument_verdict mentionedBase hfits).1.mp hok
  exact absurd (hbases _ (List.mem_cons_of_mem _ List.mem_cons_self) "Test.Clock" rfl)
    (by decide +kernel)

end SymbolModel
end Wiring
