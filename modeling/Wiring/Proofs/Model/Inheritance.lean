import Mathlib.Data.List.Nodup
import Mathlib.Data.List.Perm.Subperm
import Mathlib.Logic.Relation
import Wiring.Model.Query

/-! Chains of bases. A walk along bases with the positions that it has seen always comes to an end:
it finds the root of the chain, or a position again. Every walk finds a root exactly when no type
is above itself. -/
namespace Wiring.SymbolModel

variable {m : SymbolModel}

/-- The type at `position` has the type at `above` as its base. -/
def Link (m : SymbolModel) (position above : Nat) : Prop :=
  ∃ entry id, m.types[position]? = some entry ∧ entry.base = some id ∧ id.toNat = above

theorem link_toNat_iff {id : SymbolId} {above : Nat} :
    m.Link id.toNat above ↔ ∃ next, m.baseAt? id = some next ∧ next.toNat = above := by
  constructor
  · rintro ⟨entry, next, hentry, hbase, rfl⟩
    exact ⟨next, Option.bind_eq_some_iff.mpr ⟨entry, hentry, hbase⟩, rfl⟩
  · rintro ⟨next, hnext, rfl⟩
    obtain ⟨entry, hentry, hbase⟩ := Option.bind_eq_some_iff.mp hnext
    exact ⟨entry, next, hentry, hbase, rfl⟩

theorem Link.unique {position above above' : Nat} (h : m.Link position above)
    (h' : m.Link position above') : above = above' := by
  obtain ⟨entry, id, hentry, hbase, rfl⟩ := h
  obtain ⟨entry', id', hentry', hbase', rfl⟩ := h'
  obtain rfl : entry = entry' := Option.some.inj (hentry.symm.trans hentry')
  rw [Option.some.inj (hbase.symm.trans hbase')]

/-- There are no more positions to see than types. -/
theorem returns?_ne_none {bound : Nat} {seen : List Nat} {next : Option SymbolId}
    (hnodup : seen.Nodup) (hseen : ∀ position ∈ seen, position < m.size)
    (hbound : m.size < bound + seen.length) : m.returns? bound seen next ≠ none := by
  induction bound generalizing seen next with
  | zero =>
    have hsubset : seen ⊆ List.range m.size := fun position hmem =>
      List.mem_range.mpr (hseen position hmem)
    have hle : seen.length ≤ m.size := by
      simpa using (hnodup.subperm hsubset).length_le
    omega
  | succ bound ih =>
    cases next with
    | none => simp [returns?]
    | some id =>
      unfold returns?
      split
      · simp
      · rename_i hnew
        by_cases hrange : id.toNat < m.size
        · refine ih (List.nodup_cons.mpr ⟨hnew, hnodup⟩) ?_ (by simp; omega)
          intro position hmem
          rcases List.mem_cons.mp hmem with rfl | hold
          · exact hrange
          · exact hseen position hold
        · -- no type stands there, so the chain ends
          have hroot : m.baseAt? id = none := by
            simp [baseAt?, entryAt?, Array.getElem?_eq_none (Nat.le_of_not_lt hrange)]
          rw [hroot]
          cases bound <;> simp [returns?]

/-- A walk that finds a position again has been led into a cycle. -/
theorem exists_cycle_of_returns? {bound : Nat} {seen : List Nat} {next : Option SymbolId}
    (h : m.returns? bound seen next = some true)
    (hseen : ∀ position ∈ seen, ∀ id, next = some id →
      Relation.TransGen m.Link position id.toNat) :
    ∃ again, Relation.TransGen m.Link again again ∧
      ∀ position ∈ seen, Relation.TransGen m.Link position again := by
  induction bound generalizing seen next with
  | zero => cases next <;> simp [returns?] at h
  | succ bound ih =>
    cases next with
    | none => simp [returns?] at h
    | some id =>
      unfold returns? at h
      split at h
      · rename_i hold
        exact ⟨id.toNat, hseen _ hold id rfl, fun position hmem => hseen position hmem id rfl⟩
      · obtain ⟨again, hcycle, hreach⟩ := ih h (by
          intro position hmem above habove
          have hlink : m.Link id.toNat above.toNat := link_toNat_iff.mpr ⟨above, habove, rfl⟩
          rcases List.mem_cons.mp hmem with rfl | hold
          · exact .single hlink
          · exact (hseen position hold id rfl).tail hlink)
        exact ⟨again, hcycle, fun position hmem => hreach position (List.mem_cons_of_mem _ hmem)⟩

theorem exists_cycle_above {bound start : Nat} {entry : TypeEntry}
    (hentry : m.types[start]? = some entry)
    (h : m.returns? bound [start] entry.base = some true) :
    ∃ again, Relation.TransGen m.Link again again ∧ Relation.TransGen m.Link start again := by
  obtain ⟨again, hcycle, hreach⟩ := exists_cycle_of_returns? h (by
    intro position hmem id hid
    rw [List.mem_singleton.mp hmem]
    exact .single ⟨entry, id, hentry, hid, rfl⟩)
  exact ⟨again, hcycle, hreach start (List.mem_singleton_self start)⟩

/-- A walk that finds a root has not gone through a cycle: the bases of a type on a cycle are on
it too. -/
theorem not_above_itself_of_returns? {bound : Nat} {seen : List Nat} {id : SymbolId}
    (h : m.returns? bound seen (some id) = some false) :
    ¬ Relation.TransGen m.Link id.toNat id.toNat := by
  induction bound generalizing seen id with
  | zero => simp [returns?] at h
  | succ bound ih =>
    unfold returns? at h
    split at h
    · simp at h
    · intro hcycle
      obtain ⟨above, hlink, hback⟩ := Relation.TransGen.head'_iff.mp hcycle
      obtain ⟨next, hnext, rfl⟩ := link_toNat_iff.mp hlink
      rw [hnext] at h
      exact ih h (.tail' hback hlink)

/-- No type is above itself. -/
def Acyclic (m : SymbolModel) : Prop := ∀ position, ¬ Relation.TransGen m.Link position position

theorem returns?_start_ne_none {start : Nat} (h : start < m.size) (next : Option SymbolId) :
    m.returns? m.size [start] next ≠ none :=
  returns?_ne_none (List.nodup_singleton start) (by simpa using h) (by simp)

theorem Acyclic.returns?_eq (h : m.Acyclic) {start : Nat} {entry : TypeEntry}
    (hentry : m.types[start]? = some entry) :
    m.returns? m.size [start] entry.base = some false := by
  obtain ⟨hlt, _⟩ := Array.getElem?_eq_some_iff.mp hentry
  cases hreturns : m.returns? m.size [start] entry.base with
  | none => exact absurd hreturns (returns?_start_ne_none hlt entry.base)
  | some returns =>
    cases returns with
    | false => rfl
    | true =>
      obtain ⟨again, hcycle, _⟩ := exists_cycle_above hentry hreturns
      exact absurd hcycle (h again)

theorem mem_zipIdx_types_iff {entry : TypeEntry} {start : Nat} :
    (entry, start) ∈ m.types.toList.zipIdx ↔ m.types[start]? = some entry := by
  rw [List.mk_mem_zipIdx_iff_getElem?, Array.getElem?_toList]

theorem checkInheritance_of_acyclic (h : m.Acyclic) : m.checkInheritance = .ok () := by
  have hnone : m.types.toList.zipIdx.find? m.leadsBack = none := by
    rw [List.find?_eq_none]
    rintro ⟨entry, start⟩ hmem
    simp [leadsBack, h.returns?_eq (mem_zipIdx_types_iff.mp hmem)]
  unfold checkInheritance
  rw [hnone]

/-- The check names a type that leads into a cycle. -/
theorem checkInheritance_of_not_acyclic (h : ¬ m.Acyclic) :
    ∃ start entry again, m.types[start]? = some entry ∧
      Relation.TransGen m.Link start again ∧ Relation.TransGen m.Link again again ∧
      m.checkInheritance = .error (.inheritanceCycle entry.name) := by
  obtain ⟨position, hcycle⟩ := not_forall_not.mp h
  unfold checkInheritance
  cases hfind : m.types.toList.zipIdx.find? m.leadsBack with
  | none =>
    -- the walk from a type on the cycle would not find a root
    obtain ⟨above, hlink, hback⟩ := Relation.TransGen.head'_iff.mp hcycle
    obtain ⟨entry, id, hentry, hbase, rfl⟩ := hlink
    have hlink : m.Link position id.toNat := ⟨entry, id, hentry, hbase, rfl⟩
    obtain ⟨hlt, _⟩ := Array.getElem?_eq_some_iff.mp hentry
    have hnot : m.returns? m.size [position] entry.base ≠ some true := by
      simpa [leadsBack] using List.find?_eq_none.mp hfind _ (mem_zipIdx_types_iff.mpr hentry)
    cases hreturns : m.returns? m.size [position] entry.base with
    | none => exact absurd hreturns (returns?_start_ne_none hlt entry.base)
    | some returns =>
      cases returns with
      | true => exact absurd hreturns hnot
      | false =>
        rw [hbase] at hreturns
        exact absurd (.tail' hback hlink) (not_above_itself_of_returns? hreturns)
  | some found =>
    obtain ⟨entry, start⟩ := found
    have hentry : m.types[start]? = some entry :=
      mem_zipIdx_types_iff.mp (List.mem_of_find?_eq_some hfind)
    have hreturns : m.returns? m.size [start] entry.base = some true := by
      simpa [leadsBack] using List.find?_some hfind
    obtain ⟨again, hcycle, hreach⟩ := exists_cycle_above hentry hreturns
    exact ⟨start, entry, again, hentry, hreach, hcycle, rfl⟩

/-- `chain` holds the handles from `next` up to the root, nearest first. -/
inductive Climbs (m : SymbolModel) : Option SymbolId → List TypeRef → Prop where
  | root : Climbs m none []
  | step {id : SymbolId} {entry : TypeEntry} {rest : List TypeRef} (hentry : m.entryAt? id = some entry)
      (hrest : Climbs m entry.base rest) : Climbs m (some id) (⟨id, entry.name⟩ :: rest)

theorem Climbs.ancestors_eq {next : Option SymbolId} {chain : List TypeRef}
    (h : m.Climbs next chain) {bound : Nat} (hbound : chain.length ≤ bound) :
    m.ancestors bound next = chain := by
  induction h generalizing bound with
  | root => cases bound <;> rfl
  | @step id entry rest hentry _ ih =>
    cases bound with
    | zero => simp at hbound
    | succ bound =>
      have hbase : m.baseAt? id = entry.base := by simp [baseAt?, hentry]
      rw [ancestors, handle?, hentry, hbase, ih (by simpa using hbound)]
      rfl

/-- Every base is a position of the arena. -/
def BasesInRange (m : SymbolModel) : Prop :=
  ∀ position above, m.Link position above → above < m.size

theorem exists_climbs_of_returns? (hrange : m.BasesInRange) {bound : Nat} {seen : List Nat}
    {next : Option SymbolId} (hnext : ∀ id, next = some id → id.toNat < m.size)
    (h : m.returns? bound seen next = some false) :
    ∃ chain, m.Climbs next chain ∧ chain.length ≤ bound := by
  induction bound generalizing seen next with
  | zero =>
    cases next with
    | none => exact ⟨[], .root, Nat.le_refl 0⟩
    | some id => simp [returns?] at h
  | succ bound ih =>
    cases next with
    | none => exact ⟨[], .root, Nat.zero_le _⟩
    | some id =>
      unfold returns? at h
      split at h
      · simp at h
      · have hlt : id.toNat < m.size := hnext id rfl
        have hentry : m.entryAt? id = some m.types[id.toNat] := Array.getElem?_eq_getElem hlt
        have hbase : m.baseAt? id = (m.types[id.toNat]).base := by simp [baseAt?, hentry]
        rw [hbase] at h
        obtain ⟨rest, hrest, hlength⟩ := ih (by
          intro above habove
          exact hrange id.toNat above.toNat ⟨_, above, hentry, habove, rfl⟩) h
        exact ⟨_, .step hentry hrest, by simpa using hlength⟩

/-- From every type a chain of bases leads to a root, in no more links than there are types. -/
theorem Acyclic.exists_climbs (h : m.Acyclic) (hrange : m.BasesInRange) {start : Nat}
    {entry : TypeEntry} (hentry : m.types[start]? = some entry) :
    ∃ chain, m.Climbs entry.base chain ∧ chain.length ≤ m.size :=
  exists_climbs_of_returns? hrange
    (fun id hid => hrange start id.toNat ⟨entry, id, hentry, hid, rfl⟩) (h.returns?_eq hentry)

end Wiring.SymbolModel
