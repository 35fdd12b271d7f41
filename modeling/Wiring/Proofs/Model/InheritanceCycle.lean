import Wiring.Proofs.Model.Document

/-! Which type is blamed for a cycle of bases. The check goes through the types as they are declared
and names the first whose bases come to a cycle. That type need not be on the cycle itself: it is
when no type is declared before the first one of a cycle that leads into one from outside. -/
namespace Wiring

namespace TypeDecl

variable {types : List TypeDecl}

/-- The bases above a type come to a type that is above itself. -/
def LeadsIntoCycle (types : List TypeDecl) (name : String) : Prop :=
  ∃ ancestor, Relation.TransGen (Derives types) name ancestor ∧
    Relation.TransGen (Derives types) ancestor ancestor

/-- The first declared type that leads into a cycle. -/
def FirstIntoCycle (types : List TypeDecl) (type : TypeDecl) : Prop :=
  ∃ before after, types = before ++ type :: after ∧ LeadsIntoCycle types type.name ∧
    ∀ other ∈ before, ¬ LeadsIntoCycle types other.name

theorem firstIntoCycle_unique {type type' : TypeDecl} (h : FirstIntoCycle types type)
    (h' : FirstIntoCycle types type') : type = type' := by
  classical
  have hfind : ∀ {type}, FirstIntoCycle types type →
      types.find? (fun type => LeadsIntoCycle types type.name) = some type := by
    rintro type ⟨before, after, hsplit, hleads, hbefore⟩
    apply List.find?_eq_some_iff_append.mpr
    exact ⟨by simpa using hleads, before, after, hsplit, by simpa using hbefore⟩
  exact Option.some.inj ((hfind h).symm.trans (hfind h'))

end TypeDecl

namespace SymbolModel

variable {m : SymbolModel}

section Walking

variable {start : Nat} {entry : TypeEntry}

/-- The bases above a position come to one that is above itself. -/
def LeadsIntoCycle (m : SymbolModel) (position : Nat) : Prop :=
  ∃ again, Relation.TransGen m.Link position again ∧ Relation.TransGen m.Link again again

/-- A walk that finds a root has gone by everything above its start, and none of it is on a
cycle. -/
theorem not_above_itself_of_walked {bound : Nat} {seen : List Nat} {id : SymbolId} {above : Nat}
    (h : m.returns? bound seen (some id) = some false)
    (hpath : Relation.ReflTransGen m.Link id.toNat above) :
    ¬ Relation.TransGen m.Link above above := by
  generalize hposition : id.toNat = position at hpath
  induction hpath using Relation.ReflTransGen.head_induction_on generalizing bound seen id with
  | refl =>
    subst hposition
    exact not_above_itself_of_returns? h
  | head hlink _ ih =>
    subst hposition
    obtain ⟨next, hnext, rfl⟩ := link_toNat_iff.mp hlink
    cases bound with
    | zero => simp [returns?] at h
    | succ bound =>
      unfold returns? at h
      split at h
      · simp at h
      · rw [hnext] at h
        exact ih h rfl

theorem leadsBack_iff (hentry : m.types[start]? = some entry) :
    m.leadsBack (entry, start) = true ↔ m.LeadsIntoCycle start := by
  constructor
  · intro h
    obtain ⟨again, hcycle, hreach⟩ := exists_cycle_above hentry (by simpa [leadsBack] using h)
    exact ⟨again, hreach, hcycle⟩
  · rintro ⟨again, hreach, hcycle⟩
    obtain ⟨hlt, _⟩ := Array.getElem?_eq_some_iff.mp hentry
    obtain ⟨_, ⟨found, id, hfound, hbase, rfl⟩, hpath⟩ := Relation.TransGen.head'_iff.mp hreach
    obtain rfl : entry = found := Option.some.inj (hentry.symm.trans hfound)
    cases hreturns : m.returns? m.size [start] entry.base with
    | none => exact absurd hreturns (returns?_start_ne_none hlt entry.base)
    | some returns =>
      cases returns with
      | true => simp [leadsBack, hreturns]
      | false =>
        rw [hbase] at hreturns
        exact absurd hcycle (not_above_itself_of_walked hreturns hpath)

theorem exists_first_of_checkInheritance {name : String}
    (h : m.checkInheritance = .error (.inheritanceCycle name)) :
    ∃ start entry, m.types[start]? = some entry ∧ entry.name = name ∧ m.LeadsIntoCycle start ∧
      ∀ earlier < start, ¬ m.LeadsIntoCycle earlier := by
  unfold checkInheritance at h
  split at h
  case h_2 => contradiction
  case h_1 entry start hfind =>
    obtain ⟨hleads, position, hlt, hplace, hbefore⟩ := List.find?_eq_some_iff_getElem.mp hfind
    rw [List.getElem_zipIdx, Nat.zero_add, Prod.mk.injEq] at hplace
    obtain ⟨rfl, rfl⟩ := hplace
    have hfound : ∀ earlier, earlier ≤ position →
        ∃ hlt : earlier < m.types.toList.length,
          m.types[earlier]? = some m.types.toList[earlier] := by
      intro earlier hle
      have hlt : earlier < m.types.toList.length := by simp at hlt ⊢; omega
      exact ⟨hlt, by rw [← Array.getElem?_toList, List.getElem?_eq_getElem hlt]⟩
    obtain ⟨_, hentry⟩ := hfound position (Nat.le_refl position)
    refine ⟨position, _, hentry, by simpa using h, (leadsBack_iff hentry).mp hleads, ?_⟩
    intro earlier hearlier hcycle
    obtain ⟨_, hentry⟩ := hfound earlier hearlier.le
    have hnot := hbefore earlier hearlier
    rw [List.getElem_zipIdx, Nat.zero_add, (leadsBack_iff hentry).mpr hcycle] at hnot
    contradiction

end Walking

section Declared

variable {types : List TypeDecl}

theorem Represents.getElem?_names_of_declared (h : m.Represents types) {position : Nat}
    {type : TypeDecl} (htype : types[position]? = some type) :
    m.names[position]? = some type.name := by
  obtain ⟨others, hnames⟩ := h.names_prefix
  obtain ⟨hlt, _⟩ := List.getElem?_eq_some_iff.mp htype
  rw [← hnames, List.getElem?_append_left (by simpa using hlt), List.getElem?_map, htype]
  rfl

theorem Represents.leadsIntoCycle_iff (h : m.Represents types) {position : Nat} {name : String}
    (hname : m.names[position]? = some name) :
    m.LeadsIntoCycle position ↔ TypeDecl.LeadsIntoCycle types name := by
  constructor
  · rintro ⟨again, hreach, hcycle⟩
    obtain ⟨name', ancestor, hname', hancestor, hpath⟩ := h.derives_of_transGen_link hreach
    obtain ⟨left, right, hleft, hright, hround⟩ := h.derives_of_transGen_link hcycle
    obtain rfl : name = name' := Option.some.inj (hname.symm.trans hname')
    obtain rfl : ancestor = left := Option.some.inj (hancestor.symm.trans hleft)
    obtain rfl : ancestor = right := Option.some.inj (hancestor.symm.trans hright)
    exact ⟨ancestor, hpath, hround⟩
  · rintro ⟨ancestor, hreach, hcycle⟩
    have hlift : ∀ {name base}, Relation.TransGen (TypeDecl.Derives types) name base →
        Relation.TransGen m.Link (m.ids name).toNat (m.ids base).toNat := fun hpath =>
      hpath.lift (fun name => (m.ids name).toNat) fun _ _ => h.link_of_derives
    have hplace : (m.ids name).toNat = position := h.indexed.toNat_ids h.fits hname
    exact ⟨(m.ids ancestor).toNat, hplace ▸ hlift hreach, hlift hcycle⟩

/-- Declared types stand in the arena as they are declared, so what comes first there is declared
first. -/
theorem Represents.exists_firstIntoCycle (h : m.Represents types) {name : String}
    (herror : m.checkInheritance = .error (.inheritanceCycle name)) :
    ∃ type, TypeDecl.FirstIntoCycle types type ∧ type.name = name := by
  obtain ⟨start, entry, hentry, rfl, hleads, hearlier⟩ := exists_first_of_checkInheritance herror
  have hstart : m.names[start]? = some entry.name := by rw [getElem?_names, hentry, Option.map_some]
  have hcycle : TypeDecl.LeadsIntoCycle types entry.name := (h.leadsIntoCycle_iff hstart).mp hleads
  obtain ⟨_, hpath, _⟩ := id hcycle
  obtain ⟨_, ⟨type, hmem, hname, _⟩, _⟩ := Relation.TransGen.head'_iff.mp hpath
  obtain ⟨before, after, hsplit⟩ := List.append_of_mem hmem
  have hplace : before.length = start := by
    have htype : m.names[before.length]? = some entry.name := by
      rw [← hname]
      exact h.getElem?_names_of_declared (by simp [hsplit])
    rw [← h.indexed.toNat_ids h.fits htype, h.indexed.toNat_ids h.fits hstart]
  refine ⟨type, ⟨before, after, hsplit, hname ▸ hcycle, fun other hother hleads => ?_⟩, hname⟩
  obtain ⟨earlier, hfound⟩ := List.mem_iff_getElem?.mp hother
  obtain ⟨hlt, _⟩ := List.getElem?_eq_some_iff.mp hfound
  have hdeclared : m.names[earlier]? = some other.name :=
    h.getElem?_names_of_declared (by rw [hsplit, List.getElem?_append_left hlt, hfound])
  exact hearlier earlier (hplace ▸ hlt) ((h.leadsIntoCycle_iff hdeclared).mpr hleads)

end Declared

section Documents

variable {d : ModelDocument}
variable (hfits : (d.types.flatMap TypeDecl.names).toFinset.card ≤ UInt32.size)
include hfits

theorem exists_firstIntoCycle_of_ofDocument {name : String}
    (h : ofDocument d = .error (.inheritanceCycle name)) :
    (d.types.map TypeDecl.name).Nodup ∧ (∀ type ∈ d.types, TypeDecl.HasBase d.types type) ∧
      ∃ type, TypeDecl.FirstIntoCycle d.types type ∧ type.name = name := by
  have hdistinct : (d.types.map TypeDecl.name).Nodup := by
    by_contra hrepeated
    obtain ⟨_, _, _, _, _, _, herror⟩ := ofDocument_of_not_nodup hrepeated
    cases herror.symm.trans h
  have hbases : ∀ type ∈ d.types, TypeDecl.HasBase d.types type := by
    by_contra hundeclared
    obtain ⟨_, _, _, _, _, _, _, _, herror⟩ := ofDocument_of_not_hasBase hfits hdistinct hundeclared
    cases herror.symm.trans h
  obtain ⟨m, hfilling, hdocument⟩ := exists_declared hfits hdistinct hbases
  refine ⟨hdistinct, hbases, (hfilling.represents hfits hbases).exists_firstIntoCycle ?_⟩
  rw [hdocument] at h
  cases hcheck : m.checkInheritance with
  | ok _ =>
    rw [hcheck] at h
    contradiction
  | error failure =>
    rw [hcheck] at h
    exact congrArg Except.error (Except.error.inj h)

theorem ofDocument_of_firstIntoCycle (hdistinct : (d.types.map TypeDecl.name).Nodup)
    (hbases : ∀ type ∈ d.types, TypeDecl.HasBase d.types type) {type : TypeDecl}
    (hfirst : TypeDecl.FirstIntoCycle d.types type) :
    ofDocument d = .error (.inheritanceCycle type.name) := by
  obtain ⟨_, _, _, ⟨ancestor, _, hcycle⟩, _⟩ := id hfirst
  obtain ⟨_, _, _, _, _, herror⟩ := ofDocument_of_cycle hfits hdistinct hbases ⟨ancestor, hcycle⟩
  obtain ⟨_, _, blamed, hblamed, hname⟩ := exists_firstIntoCycle_of_ofDocument hfits herror
  rw [herror, ← hname, TypeDecl.firstIntoCycle_unique hblamed hfirst]

end Documents

/-- A document fails for a cycle of bases exactly when its declared names are distinct, every base
is declared and some type leads into a cycle, and the first declared type that does is blamed. It
is on a cycle itself exactly when, before some type on a cycle, no type is declared that leads into
one. -/
theorem first_into_cycle_blamed (d : ModelDocument)
    (hfits : (d.types.flatMap TypeDecl.names).toFinset.card ≤ UInt32.size) (name : String) :
    (ofDocument d = .error (.inheritanceCycle name) ↔
      (d.types.map TypeDecl.name).Nodup ∧
      (∀ type ∈ d.types, ∀ base, type.base = some base → base ∈ d.types.map TypeDecl.name) ∧
      ∃ type, TypeDecl.FirstIntoCycle d.types type ∧ type.name = name) ∧
    (ofDocument d = .error (.inheritanceCycle name) →
      (Relation.TransGen (TypeDecl.Derives d.types) name name ↔
        ∃ before type after, d.types = before ++ type :: after ∧
          Relation.TransGen (TypeDecl.Derives d.types) type.name type.name ∧
          ∀ other ∈ before, ¬ TypeDecl.LeadsIntoCycle d.types other.name)) := by
  refine ⟨⟨exists_firstIntoCycle_of_ofDocument hfits, ?_⟩, fun herror => ?_⟩
  · rintro ⟨hdistinct, hbases, type, hfirst, rfl⟩
    exact ofDocument_of_firstIntoCycle hfits hdistinct hbases hfirst
  · obtain ⟨_, _, type, hfirst, rfl⟩ := exists_firstIntoCycle_of_ofDocument hfits herror
    constructor
    · intro hcycle
      obtain ⟨before, after, hsplit, _, hbefore⟩ := hfirst
      exact ⟨before, type, after, hsplit, hcycle, hbefore⟩
    · rintro ⟨before, other, after, hsplit, hcycle, hbefore⟩
      have hother : TypeDecl.FirstIntoCycle d.types other :=
        ⟨before, after, hsplit, ⟨other.name, hcycle, hcycle⟩, hbefore⟩
      rwa [TypeDecl.firstIntoCycle_unique hfirst hother]

/-- A clock that derives from one that derives from itself. -/
def loopedBase : ModelDocument :=
  { types := [
      { name := "Test.UtcClock", base := some "Test.Clock" },
      { name := "Test.Clock", base := some "Test.Clock" }] }

theorem derives_loopedBase_iff {name base : String} :
    TypeDecl.Derives loopedBase.types name base ↔
      (name = "Test.UtcClock" ∨ name = "Test.Clock") ∧ base = "Test.Clock" := by
  simp only [TypeDecl.Derives, loopedBase, List.mem_cons, List.not_mem_nil, or_false,
    exists_eq_or_imp, exists_eq_left, Option.some.injEq]
  grind

theorem first_into_cycle_blamed_loopedBase :
    (loopedBase.types.flatMap TypeDecl.names).toFinset.card ≤ UInt32.size ∧
    TypeDecl.FirstIntoCycle loopedBase.types
      { name := "Test.UtcClock", base := some "Test.Clock" } ∧
    ofDocument loopedBase = .error (.inheritanceCycle "Test.UtcClock") := by
  have hfits : (loopedBase.types.flatMap TypeDecl.names).toFinset.card ≤ UInt32.size := by
    decide +kernel
  have hleads : TypeDecl.LeadsIntoCycle loopedBase.types "Test.UtcClock" :=
    ⟨"Test.Clock", .single (derives_loopedBase_iff.mpr (by simp)),
      .single (derives_loopedBase_iff.mpr (by simp))⟩
  have hfirst : TypeDecl.FirstIntoCycle loopedBase.types
      { name := "Test.UtcClock", base := some "Test.Clock" } := ⟨[], _, rfl, hleads, by simp⟩
  refine ⟨hfits, hfirst, (first_into_cycle_blamed loopedBase hfits _).1.mpr ?_⟩
  refine ⟨?_, ?_, _, hfirst, rfl⟩
  · decide +kernel
  · simp [loopedBase]

/-- The type that is blamed is not above itself; only its base is. -/
theorem not_on_cycle_loopedBase :
    ∃ failure, ofDocument loopedBase = .error failure ∧
      failure.detail = "Inheritance cycle through type 'Test.UtcClock'" ∧
      ¬ Relation.TransGen (TypeDecl.Derives loopedBase.types) "Test.UtcClock" "Test.UtcClock" ∧
      Relation.TransGen (TypeDecl.Derives loopedBase.types) "Test.Clock" "Test.Clock" := by
  refine ⟨.inheritanceCycle "Test.UtcClock", by decide +kernel, by decide, ?_, ?_⟩
  · intro hcycle
    obtain ⟨_, _, hlast⟩ := Relation.TransGen.tail'_iff.mp hcycle
    simp [derives_loopedBase_iff] at hlast
  · exact .single (derives_loopedBase_iff.mpr (by simp))

end SymbolModel
end Wiring
