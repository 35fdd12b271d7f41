import Mathlib.Data.List.Cycle
import Mathlib.Data.List.Find
import Wiring.Proofs.Graph.Agreement
import Wiring.Proofs.Graph.CycleReports

/-! Registrations of distinct interfaces in another order. Each interface is then resolved to the
same registration in any order, so a parameter closes the same cycle. Which parameter reports a
cycle does depend on the order, and with it where the report cuts the cycle open, but not which
cycles are reported. -/
namespace Wiring.Graph

/-- The cycle without a place where it starts. -/
def Citation.unrooted (c : Citation) : Cycle String := c.nodes

theorem Citation.coe_identity (c : Citation) : (c.identity : Cycle String) = c.unrooted :=
  Cycle.coe_eq_coe.mpr (cycleIdentity_isRotated c.path.cycle)

/-- What is left out varies with the order of the items, but not the keys of what remains. -/
theorem map_firstsBy_perm {Item Key : Type} [DecidableEq Key] (key : Item → Key)
    {items others : List Item} (h : items.Perm others) :
    ((firstsBy key [] items).map key).Perm ((firstsBy key [] others).map key) := by
  -- the keys that remain are those of all items, each of them once
  have hnodup : ∀ items : List Item, ((firstsBy key [] items).map key).Nodup :=
    fun _ => List.pairwise_map.mpr pairwise_firstsBy
  have hmem : ∀ (items : List Item) (k : Key),
      k ∈ (firstsBy key [] items).map key ↔ k ∈ items.map key := by
    intro items k
    rw [List.mem_map, List.mem_map]
    constructor
    · rintro ⟨item, hitem, rfl⟩
      obtain ⟨_, before, after, rfl, _⟩ := first_of_mem_firstsBy hitem
      exact ⟨item, by simp, rfl⟩
    · rintro ⟨item, hitem, rfl⟩
      rcases @exists_mem_firstsBy _ _ _ key [] _ _ hitem with hknown | hfirst
      · contradiction
      · exact hfirst
  apply (List.perm_ext_iff_of_nodup (hnodup items) (hnodup others)).mpr
  intro k
  rw [hmem, hmem, (h.map key).mem_iff]

section Reordered

variable {records others : List RegistrationRecord} {detection : CycleDetection}

theorem lookup_eq_of_perm (hdistinct : (records.map RegistrationRecord.key).Nodup)
    (h : records.Perm others) (name : String) : lookup records name = lookup others name := by
  apply List.find?_eq_find?_of_perm h
  rintro r ⟨hr, hname⟩ s ⟨hs, hname'⟩
  rw [beq_iff_eq] at hname hname'
  exact List.inj_on_of_nodup_map hdistinct hr hs (hname.trans hname'.symm)

theorem agreeWithin_of_perm (hdistinct : (records.map RegistrationRecord.key).Nodup)
    (h : records.Perm others) : AgreeWithin (fun _ => True) records others :=
  ⟨fun name _ => lookup_eq_of_perm hdistinct h name, fun _ _ _ _ _ _ => trivial⟩

theorem found_perm (hdistinct : (records.map RegistrationRecord.key).Nodup)
    (h : records.Perm others) :
    (found records detection records).Perm (found others detection others) := by
  have hcitation : citation? records detection = citation? others detection := by
    funext ⟨r, d⟩
    have hpath : returnPath? records detection r d = returnPath? others detection r d :=
      (agreeWithin_of_perm hdistinct h).returnPath?_eq r fun _ _ => trivial
    exact congrArg (Option.map (Citation.mk r)) hpath
  unfold found
  rw [hcitation]
  exact (h.flatMap_right _).filterMap _

end Reordered

/-- Where interfaces are distinct, the order of the registrations does not matter: the same records
are kept, each in its place, the same lazy parameters are reported, and the same cycles, as many of
them, though each may be read from another of its nodes. -/
theorem validate_perm {records others : List RegistrationRecord} (detection : CycleDetection)
    (hdistinct : (records.map RegistrationRecord.key).Nodup) (h : records.Perm others) :
    (validate detection others).records =
      others.filter (· ∈ (validate detection records).records) ∧
    (reportsOf .lazyParameterNotRegisteredLazy (validate detection records)).Perm
      (reportsOf .lazyParameterNotRegisteredLazy (validate detection others)) ∧
    ((cited records detection).map Citation.unrooted).Perm
      ((cited others detection).map Citation.unrooted) ∧
    (cycleReports (validate detection records)).length =
      (cycleReports (validate detection others)).length ∧
    cycleReports (validate detection records) =
      (cited records detection).map Citation.diagnostic ∧
    cycleReports (validate detection others) =
      (cited others detection).map Citation.diagnostic := by
  have hagree := agreeWithin_of_perm hdistinct h
  have hcycles : ((cited records detection).map Citation.unrooted).Perm
      ((cited others detection).map Citation.unrooted) := by
    have hidentities : ((cited records detection).map Citation.identity).Perm
        ((cited others detection).map Citation.identity) :=
      map_firstsBy_perm Citation.identity (found_perm hdistinct h)
    have hunrooted : (fun names : List String => (names : Cycle String)) ∘ Citation.identity =
        Citation.unrooted := funext Citation.coe_identity
    rw [← hunrooted, ← List.map_map, ← List.map_map]
    exact hidentities.map _
  refine ⟨?_, ?_, hcycles, ?_, cycleReports_validate records detection,
    cycleReports_validate others detection⟩
  · apply List.filter_congr
    intro r hr
    rw [Bool.eq_iff_iff, decide_eq_true_iff, mem_validate_iff, ← isSound_iff,
      ← hagree.isSound_eq (fun _ _ => trivial) (fun _ _ => trivial)]
    simp [h.mem_iff.mpr hr]
  · rw [reportsOf_lazyParameter_validate, reportsOf_lazyParameter_validate]
    apply h.flatMap
    intro r _
    rw [hagree.lazyMismatches_eq fun _ _ => trivial]
  · rw [cycleReports_validate, cycleReports_validate]
    simpa using hcycles.length_eq

/-- Two cycles that meet in one interface, a record that defers this interface, and one that asks
for nothing. -/
def deferredCycles : List RegistrationRecord :=
  touchingCycles ++
    [sampleRecord "ID" "D" .transient [("b", .deferred ⟨0, "IB"⟩)],
     sampleRecord "IE" "E" .transient []]

/-- In the reverse order the same two cycles are reported, but from other nodes. -/
theorem validate_perm_reverse_deferredCycles :
    (deferredCycles.map RegistrationRecord.key).Nodup ∧
    deferredCycles.Perm deferredCycles.reverse ∧
    (validate .full deferredCycles.reverse).records =
      deferredCycles.reverse.filter (· ∈ (validate .full deferredCycles).records) ∧
    (reportsOf .lazyParameterNotRegisteredLazy (validate .full deferredCycles)).Perm
      (reportsOf .lazyParameterNotRegisteredLazy (validate .full deferredCycles.reverse)) ∧
    ((cited deferredCycles .full).map Citation.unrooted).Perm
      ((cited deferredCycles.reverse .full).map Citation.unrooted) ∧
    (cited deferredCycles .full).map Citation.nodes = [["IA", "IB"], ["IB", "IC"]] ∧
    (cited deferredCycles.reverse .full).map Citation.nodes = [["IC", "IB"], ["IB", "IA"]] := by
  have hdistinct : (deferredCycles.map RegistrationRecord.key).Nodup := by decide
  have hperm : deferredCycles.Perm deferredCycles.reverse := (List.reverse_perm _).symm
  obtain ⟨hkept, hlazy, hcycles, _⟩ := validate_perm .full hdistinct hperm
  exact ⟨hdistinct, hperm, hkept, hlazy, hcycles, by decide, by decide⟩

end Wiring.Graph
