import Mathlib.Data.List.Chain
import Wiring.Proofs.Model.Range

/-! The chain of bases above a type. In a model that a document has come to, it repeats no type and
ends at one without a base, before as many links are followed as there are types; so the walk along
bases comes to its end without being stopped. -/
namespace Wiring.SymbolModel

variable {m : SymbolModel} {t : TypeRef} {entry : TypeEntry}

/-- The handle of the base of a type. -/
def base? (m : SymbolModel) (t : TypeRef) : Option TypeRef :=
  ((m.entry? t).bind TypeEntry.base).bind m.handle?

section Climbing

variable {next : Option SymbolId} {chain : List TypeRef}

theorem entry?_eq_some_iff :
    m.entry? t = some entry ↔ m.entryAt? t.id = some entry ∧ entry.name = t.name := by
  unfold entry?
  rw [Option.filter_eq_some_iff, beq_iff_eq]

theorem Climbs.of_entry? (h : m.Climbs entry.base chain) (hentry : m.entry? t = some entry) :
    m.Climbs (some t.id) (t :: chain) := by
  obtain ⟨hat, hname⟩ := entry?_eq_some_iff.mp hentry
  have hstep : m.Climbs (some t.id) (⟨t.id, entry.name⟩ :: chain) := .step hat h
  rwa [hname] at hstep

theorem Climbs.head?_eq (h : m.Climbs next chain) : chain.head? = next.bind m.handle? := by
  cases h with
  | root => rfl
  | step hentry _ => simp [handle?, hentry]

theorem Climbs.isChain (h : m.Climbs next chain) :
    chain.IsChain fun derived base => m.base? derived = some base := by
  induction h with
  | root => exact .nil
  | @step id entry rest hentry hrest ih =>
    have hown : m.entry? ⟨id, entry.name⟩ = some entry := entry?_eq_some_iff.mpr ⟨hentry, rfl⟩
    refine List.isChain_cons.mpr ⟨fun base hbase => ?_, ih⟩
    rw [base?, hown, Option.bind_some, ← hrest.head?_eq]
    exact hbase

theorem Climbs.eq_none_of_nil (h : m.Climbs next []) : next = none := by
  cases h
  rfl

theorem Climbs.base_getLast? (h : m.Climbs next chain) :
    ∀ last ∈ chain.getLast?, (m.entry? last).bind TypeEntry.base = none := by
  induction h with
  | root => simp
  | @step id entry rest hentry hrest ih =>
    cases rest with
    | nil =>
      have hown : m.entry? ⟨id, entry.name⟩ = some entry := entry?_eq_some_iff.mpr ⟨hentry, rfl⟩
      simpa [hown] using hrest.eq_none_of_nil
    | cons _ _ =>
      rw [List.getLast?_cons_cons]
      exact ih

/-- Whatever is on a chain is above the type that the chain starts from. -/
theorem Climbs.above (h : m.Climbs next chain) {start : Nat}
    (hstart : ∀ id, next = some id → m.Link start id.toNat) :
    ∀ t ∈ chain, Relation.TransGen m.Link start t.id.toNat := by
  induction h generalizing start with
  | root => simp
  | @step id entry rest hentry _ ih =>
    have hlink : m.Link start id.toNat := hstart id rfl
    refine List.forall_mem_cons.mpr ⟨.single hlink, fun t ht => ?_⟩
    exact .head hlink (ih (fun above habove => ⟨entry, above, hentry, habove, rfl⟩) t ht)

theorem Climbs.nodup (h : m.Climbs next chain) (hacyclic : m.Acyclic) : chain.Nodup := by
  induction h with
  | root => exact .nil
  | @step id entry rest hentry hrest ih =>
    refine List.nodup_cons.mpr ⟨fun hmem => hacyclic id.toNat ?_, ih⟩
    exact hrest.above (fun above habove => ⟨entry, above, hentry, habove, rfl⟩) _ hmem

end Climbing

/-- `chain` goes from `t` along bases to the root, through no type twice. -/
structure Lineage (m : SymbolModel) (t : TypeRef) (chain : List TypeRef) : Prop where
  head : chain.head? = some t
  nodup : chain.Nodup
  links : chain.IsChain fun derived base => m.base? derived = some base
  root : ∀ last ∈ chain.getLast?, (m.entry? last).bind TypeEntry.base = none

section Levels

theorem basesAndSelf_of_entry?_eq_none (h : m.entry? t = none) : m.basesAndSelf t = [t] := by
  unfold basesAndSelf
  rw [h]
  cases m.types.size <;> rfl

theorem lineage_of_entry?_eq_none (h : m.entry? t = none) : m.Lineage t [t] where
  head := rfl
  nodup := List.nodup_singleton t
  links := .singleton t
  root last hlast := by
    obtain rfl : t = last := Option.some.inj hlast
    rw [h, Option.bind_none]

theorem basesAndSelf_eq {chain : List TypeRef} (hentry : m.entry? t = some entry)
    (hclimbs : m.Climbs entry.base chain) (hlength : chain.length ≤ m.size) :
    m.basesAndSelf t = t :: chain := by
  rw [basesAndSelf, hentry, Option.bind_some]
  exact congrArg (t :: ·) (hclimbs.ancestors_eq hlength)

/-- The bases of a type that the model holds, which are no more than there are types. -/
theorem InRange.exists_climbs (h : m.InRange) (hacyclic : m.Acyclic)
    (hentry : m.entry? t = some entry) :
    ∃ chain, m.Climbs entry.base chain ∧ chain.length ≤ m.size :=
  hacyclic.exists_climbs h.basesInRange (entry?_eq_some_iff.mp hentry).1

theorem InRange.lineage (h : m.InRange) (hacyclic : m.Acyclic) (t : TypeRef) :
    m.Lineage t (m.basesAndSelf t) := by
  cases hentry : m.entry? t with
  | none =>
    rw [basesAndSelf_of_entry?_eq_none hentry]
    exact lineage_of_entry?_eq_none hentry
  | some entry =>
    obtain ⟨chain, hclimbs, hlength⟩ := h.exists_climbs hacyclic hentry
    have hself : m.Climbs (some t.id) (t :: chain) := hclimbs.of_entry? hentry
    rw [basesAndSelf_eq hentry hclimbs hlength]
    exact ⟨rfl, hself.nodup hacyclic, hself.isChain, hself.base_getLast?⟩

/-- A walk that may follow more links than there are types finds nothing more. -/
theorem InRange.ancestors_eq (h : m.InRange) (hacyclic : m.Acyclic) (t : TypeRef) {bound : Nat}
    (hbound : m.size ≤ bound) :
    t :: m.ancestors bound ((m.entry? t).bind TypeEntry.base) = m.basesAndSelf t := by
  cases hentry : m.entry? t with
  | none =>
    rw [basesAndSelf_of_entry?_eq_none hentry]
    cases bound <;> rfl
  | some entry =>
    obtain ⟨chain, hclimbs, hlength⟩ := h.exists_climbs hacyclic hentry
    rw [basesAndSelf_eq hentry hclimbs hlength]
    exact congrArg (t :: ·) (hclimbs.ancestors_eq (hlength.trans hbound))

end Levels

section Declared

variable {types : List TypeDecl} {name base : String}

theorem map_name_handleOf (m : SymbolModel) (names : List String) :
    (names.map m.handleOf).map TypeRef.name = names := by
  rw [List.map_map]
  exact List.map_id names

theorem Represents.basesAndSelf_of_root (h : m.Represents types) (hacyclic : m.Acyclic)
    (hname : name ∈ m.names) (hroot : (TypeDecl.find types name).base = none) :
    m.basesAndSelf (m.handleOf name) = [m.handleOf name] := by
  obtain ⟨chain, hchain, heq⟩ := h.exists_basesAndSelf_eq hacyclic hname
  rw [hroot] at hchain
  cases hchain
  exact heq

theorem Represents.basesAndSelf_of_base (h : m.Represents types) (hacyclic : m.Acyclic)
    (hname : name ∈ m.names) (hbase : (TypeDecl.find types name).base = some base) :
    m.basesAndSelf (m.handleOf name) =
      m.handleOf name :: m.basesAndSelf (m.handleOf base) := by
  obtain ⟨chain, hchain, heq⟩ := h.exists_basesAndSelf_eq hacyclic hname
  obtain ⟨above, habove, heq'⟩ := h.exists_basesAndSelf_eq hacyclic (h.base_mem_names hbase)
  -- there is one chain of declared bases, whichever type on it is asked
  rw [hbase] at hchain
  obtain rfl := hchain.unique (.step habove)
  rw [heq, heq', List.map_cons]

/-- The levels of inheritance are the handles of the declared bases. -/
theorem Represents.chain_basesAndSelf (h : m.Represents types) (hacyclic : m.Acyclic)
    (hname : name ∈ m.names) :
    TypeDecl.Chain types (some name) ((m.basesAndSelf (m.handleOf name)).map TypeRef.name) := by
  obtain ⟨chain, hchain, heq⟩ := h.exists_basesAndSelf_eq hacyclic hname
  rw [heq, map_name_handleOf]
  exact .step hchain

end Declared

/-- In every model that a document has come to, by whatever calls, the walk along bases from any
handle ends at a type without base, with no type met twice and no need of a bound; a handle that the
model does not hold stands alone. As long as there are no more names than identities, the types on
the way are the declared bases. -/
theorem lineage_of_ofDocument (d : ModelDocument) (calls : List InvocationDecl)
    (bare : SymbolModel) (h : ofDocument d = .ok bare) (t : TypeRef) :
    let m := ((calls.mapM invocationSite).run bare).2
    m.Lineage t (m.basesAndSelf t) ∧
    (∀ bound, m.size ≤ bound →
      t :: m.ancestors bound ((m.entry? t).bind TypeEntry.base) = m.basesAndSelf t) ∧
    (m.entry? t = none → m.basesAndSelf t = [t]) ∧
    ((d.names calls).toFinset.card ≤ UInt32.size → (m.entry? t).isSome = true →
      TypeDecl.Chain d.types (some t.name) ((m.basesAndSelf t).map TypeRef.name)) := by
  intro m
  obtain ⟨hrange, hacyclic⟩ := inRange_acyclic_of_invocationSites h calls
  refine ⟨hrange.lineage hacyclic t, fun _ => hrange.ancestors_eq hacyclic t,
    basesAndSelf_of_entry?_eq_none, fun hfits hheld => ?_⟩
  obtain ⟨hholds, _⟩ := holds_of_mapM_invocationSite hfits h
  obtain ⟨entry, hentry⟩ := Option.isSome_iff_exists.mp hheld
  obtain ⟨hname, hhandle⟩ :=
    hholds.represents.knows_iff.mp (hholds.represents.knows_of_entry? hentry)
  have hchain := hholds.represents.chain_basesAndSelf hacyclic hname
  rwa [← hhandle] at hchain

/-- Clocks that derive from one another, the most derived declared first. -/
def derivedClocks : ModelDocument :=
  { types := [
      { name := "Test.UtcClock", base := some "Test.SystemClock" },
      { name := "Test.SystemClock", base := some "Test.Clock" },
      { name := "Test.Clock" }] }

/-- The root is found through the type between; another identity of it stands alone. -/
theorem lineage_of_ofDocument_derivedClocks :
    (derivedClocks.names [serviceCall]).toFinset.card ≤ UInt32.size ∧
    ∃ bare, ofDocument derivedClocks = .ok bare ∧
      let m := (([serviceCall].mapM invocationSite).run bare).2
      m.Lineage ⟨0, "Test.UtcClock"⟩
        [⟨0, "Test.UtcClock"⟩, ⟨1, "Test.SystemClock"⟩, ⟨2, "Test.Clock"⟩] ∧
      TypeDecl.Chain derivedClocks.types (some "Test.UtcClock")
        ["Test.UtcClock", "Test.SystemClock", "Test.Clock"] ∧
      m.basesAndSelf ⟨7, "Test.UtcClock"⟩ = [⟨7, "Test.UtcClock"⟩] := by
  have hfits : (derivedClocks.names [serviceCall]).toFinset.card ≤ UInt32.size := by
    decide +kernel
  have hanswers : (ofDocument derivedClocks).toOption.map (fun bare =>
      let m := (([serviceCall].mapM invocationSite).run bare).2
      ((m.entry? ⟨0, "Test.UtcClock"⟩).isSome, m.basesAndSelf ⟨0, "Test.UtcClock"⟩,
        (m.entry? ⟨7, "Test.UtcClock"⟩).isNone)) =
      some (true, [⟨0, "Test.UtcClock"⟩, ⟨1, "Test.SystemClock"⟩, ⟨2, "Test.Clock"⟩], true) := by
    decide +kernel
  cases h : ofDocument derivedClocks with
  | error failure =>
    rw [h] at hanswers
    contradiction
  | ok bare =>
    rw [h] at hanswers
    simp only [Except.toOption, Option.map_some, Option.some.injEq, Prod.mk.injEq,
      Option.isNone_iff_eq_none] at hanswers
    obtain ⟨hheld, hlevels, hforeign⟩ := hanswers
    obtain ⟨hlineage, _, _, hchain⟩ :=
      lineage_of_ofDocument derivedClocks [serviceCall] bare h ⟨0, "Test.UtcClock"⟩
    obtain ⟨_, _, halone, _⟩ :=
      lineage_of_ofDocument derivedClocks [serviceCall] bare h ⟨7, "Test.UtcClock"⟩
    have hdeclared := hchain hfits hheld
    rw [hlevels] at hlineage hdeclared
    exact ⟨hfits, bare, rfl, hlineage, hdeclared, halone hforeign⟩

end Wiring.SymbolModel
