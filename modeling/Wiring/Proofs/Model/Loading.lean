import Mathlib.Data.List.Find
import Wiring.Proofs.Model.Translation

/-! Loaded documents that correspond. Two documents do that declare the same types in any order and
have the same calls, whatever they reference; and a document does with itself, whatever calls are
left out. -/
namespace Wiring

namespace TypeDecl

variable {types types' : List TypeDecl}

theorem derives_eq_of_perm (h : types.Perm types') : Derives types = Derives types' := by
  funext name base
  exact propext (exists_congr fun type => and_congr_left fun _ => h.mem_iff)

theorem WellFormed.of_perm (hwell : WellFormed types) (h : types.Perm types') :
    WellFormed types' where
  distinct := (h.map TypeDecl.name).nodup_iff.mp hwell.distinct
  bases type htype base hbase :=
    (h.map TypeDecl.name).mem_iff.mp (hwell.bases type (h.mem_iff.mpr htype) base hbase)
  acyclic := derives_eq_of_perm h ▸ hwell.acyclic

theorem find_eq_of_perm (hdistinct : (types.map TypeDecl.name).Nodup) (h : types.Perm types')
    (name : String) : find types name = find types' name := by
  have hfind : (types.find? fun type => type.name == name) =
      types'.find? fun type => type.name == name := by
    apply List.find?_eq_find?_of_perm h
    rintro type ⟨htype, hname⟩ type' ⟨htype', hname'⟩
    rw [beq_iff_eq] at hname hname'
    exact List.inj_on_of_nodup_map hdistinct htype htype' (hname.trans hname'.symm)
  unfold find
  rw [hfind]

end TypeDecl

namespace SymbolModel

variable {m m' : SymbolModel} {d d' : ModelDocument} {calls calls' : List InvocationDecl}

section Loading

theorem load_eq (h : ofDocument d = .ok m) :
    load d = .ok (((d.invocations.mapM invocationSite).run m).2,
      ((d.invocations.mapM invocationSite).run m).1) := by
  unfold load
  rw [h]
  rfl

theorem load_eq_error {failure : Failure} (h : ofDocument d = .error failure) :
    load d = .error failure := by
  unfold load
  rw [h]
  rfl

/-- Well-formed documents load; the sites have the handles of the model. -/
theorem exists_load_eq_ok (hfits : (d.names d.invocations).toFinset.card ≤ UInt32.size)
    (hwell : TypeDecl.WellFormed d.types) :
    ∃ m : SymbolModel, m.Holds d d.invocations ∧
      load d = .ok (m, d.invocations.map (InvocationDecl.read m.ids)) := by
  obtain ⟨_, _, _, hdocument⟩ := exists_ofDocument_eq_ok (d.card_flatMap_names_le.trans hfits) hwell
  obtain ⟨hholds, hsites⟩ := holds_of_mapM_invocationSite hfits hdocument
  refine ⟨_, hholds, ?_⟩
  rw [load_eq hdocument, hsites]

theorem exists_load_eq_error (hfits : (d.names d.invocations).toFinset.card ≤ UInt32.size)
    (hill : ¬ TypeDecl.WellFormed d.types) : ∃ failure, load d = .error failure := by
  obtain ⟨failure, herror, _⟩ :=
    exists_ofDocument_eq_error (d.card_flatMap_names_le.trans hfits) hill
  exact ⟨failure, load_eq_error herror⟩

end Loading

section Correspondence

/-- The handle of the model for the name that another handle carries. -/
def retarget (m : SymbolModel) (t : TypeRef) : TypeRef := m.handleOf t.name

theorem mapTypes_retarget_read (ids : String → SymbolId) (m : SymbolModel)
    (call : InvocationDecl) : (call.read ids).mapTypes m.retarget = call.read m.ids := by
  unfold InvocationDecl.read InvocationSite.mapTypes
  rw [List.map_map]
  rfl

/-- The names that both models know, handles translated by name. -/
theorem Holds.corresponds_of_perm (h : m.Holds d calls) (h' : m'.Holds d' calls')
    (htypes : d.types.Perm d'.types) :
    Corresponds m m' d d' calls calls' (fun name => name ∈ m.names ∧ name ∈ m'.names)
      m'.retarget where
  left := h
  right := h'
  find_eq := TypeDecl.find_eq_of_perm h.represents.distinct htypes
  mem_left _ hname := hname.1
  mem_right _ hname := hname.2
  declared _ htype _ hname := ⟨h.represents.mem_names htype hname,
    h'.represents.mem_names (htypes.mem_iff.mp htype) hname⟩
  handleOf_eq _ _ := rfl
  name_eq _ := rfl

theorem Indexed.grown_invocationSites (h : m.Indexed) (calls : List InvocationDecl) :
    m.Grown ((calls.mapM invocationSite).run m).2 := by
  rw [(Interns.mapM interns_invocationSite calls).state_eq m]
  exact h.grown_meetAll _

theorem Grown.handleOf_eq (h : m.Grown m') (hm : m.Indexed) {name : String}
    (hname : name ∈ m.names) : m'.handleOf name = m.handleOf name :=
  congrArg (TypeRef.mk · name) (h.ids_eq hm (hm.idOf?_of_mem hname))

/-- The names known before any call is bound, whose handles are the same with whatever calls. -/
theorem Holds.corresponds_of_grown {bare : SymbolModel} (hbare : bare.Holds d [])
    (h : m.Holds d calls) (h' : m'.Holds d calls') (hgrown : bare.Grown m)
    (hgrown' : bare.Grown m') :
    Corresponds m m' d d calls calls' (· ∈ bare.names) id where
  left := h
  right := h'
  find_eq _ := rfl
  mem_left _ hname := hgrown.names_prefix.subset hname
  mem_right _ hname := hgrown'.names_prefix.subset hname
  declared _ htype _ hname := hbare.represents.mem_names htype hname
  handleOf_eq name hname := by
    have hindexed : bare.Indexed := hbare.represents.indexed
    rw [hgrown'.handleOf_eq hindexed hname, hgrown.handleOf_eq hindexed hname, id_eq]
  name_eq _ := rfl

end Correspondence

end SymbolModel
end Wiring
