import Wiring.Proofs.Graph.Soundness
import Wiring.Proofs.Graph.SearchOrder

/-! Two lists of registrations that resolve the same names alike. A check of a record reads no
further than what the record asks for leads; where the two lists agree that far, the check finds
the same ways and the same lazy parameters in both, although their searches have other bounds. -/
namespace Wiring

namespace RegistrationRecord

theorem needs_of_mem {r : RegistrationRecord} {d : Dependency} {name : String}
    (hd : d ∈ r.constructorDependencies) (h : d.kind.plainName? = some name) : r.Needs name :=
  ⟨d, hd, (DependencyKind.plainName?_eq_some_iff _ _).mp h⟩

theorem defers_of_mem {r : RegistrationRecord} {d : Dependency} {name : String}
    (hd : d ∈ r.constructorDependencies) (h : d.kind.deferredName? = some name) : r.Defers name :=
  ⟨d, hd, (DependencyKind.deferredName?_eq_some_iff _ _).mp h⟩

end RegistrationRecord

namespace Graph

/-! ## Searches over the same edges -/

section Searches

variable {target : String} {inside : String → Prop}

theorem sweep_congr {visit visit' : String → List String → Option (List String) × List String}
    (hvisit : ∀ next seen, inside next → visit next seen = visit' next seen)
    {nexts : List String} (hnexts : ∀ next ∈ nexts, inside next) (visited : List String) :
    sweep visit target nexts visited = sweep visit' target nexts visited := by
  induction nexts generalizing visited with
  | nil => rfl
  | cons next rest ih =>
    obtain ⟨hnext, hrest⟩ := List.forall_mem_cons.mp hnexts
    simp only [sweep, hvisit next _ hnext, ih hrest]

/-- A search takes no notice of edges out of nodes that it cannot come to. -/
theorem search_congr {successors successors' : String → List String}
    (hsame : ∀ node, inside node → successors node = successors' node)
    (hclosed : ∀ node, inside node → ∀ next ∈ successors node, inside next)
    (bound : Nat) {node : String} (hnode : inside node) (visited : List String) :
    search successors target bound node visited = search successors' target bound node visited := by
  induction bound generalizing node visited with
  | zero => rfl
  | succ bound ih =>
    have hsweep := @sweep_congr target inside _ _ (fun next seen hnext => ih hnext seen)
      (successors node) (hclosed node hnode) visited
    unfold search
    rw [← hsame node hnode, hsweep]

/-- A larger bound changes nothing in the way found. -/
theorem way?_full_eq {records : List RegistrationRecord} {bound : Nat}
    (hbound : records.length < bound) (source target : String) :
    way? records .full source target =
      (search (successors records) target bound source [source]).1 := by
  have hroom := unvisited_keys_lt records [source]
  have hsame := @sameOutcome_search _ target _ (successors_subset records) _ _ source _ _ hroom
    (Nat.lt_of_lt_of_le hroom hbound) (.refl [source])
  exact hsame.way

end Searches

/-! ## Lists that agree -/

/-- Both lists resolve every name inside to the same registration, and what this registration needs
is inside as well. -/
structure AgreeWithin (inside : String → Prop) (records others : List RegistrationRecord) :
    Prop where
  lookup_eq : ∀ name, inside name → lookup records name = lookup others name
  closed : ∀ name, inside name → ∀ r, lookup records name = some r →
    ∀ next, r.Needs next → inside next

namespace AgreeWithin

variable {inside : String → Prop} {records others : List RegistrationRecord}
  {detection : CycleDetection}

theorem successors_eq (h : AgreeWithin inside records others) {name : String}
    (hname : inside name) : successors records name = successors others name := by
  unfold successors
  rw [← h.lookup_eq name hname]
  cases hl : lookup records name with
  | none => rfl
  | some r =>
    apply List.filter_congr
    intro next hnext
    have hinside := h.closed name hname r hl next ((mem_plainNames_iff r next).mp hnext)
    rw [isRegistered, isRegistered, h.lookup_eq next hinside]

theorem inside_of_mem_successors (h : AgreeWithin inside records others) (name : String)
    (hname : inside name) : ∀ next ∈ successors records name, inside next := by
  intro next hnext
  obtain ⟨_, r, hr, hneeds⟩ := (mem_successors_iff records name next).mp hnext
  exact h.closed name hname r ((lookup_eq_some_iff records name r).mpr hr) next hneeds

theorem way?_eq (h : AgreeWithin inside records others) {source : String}
    (hsource : inside source) (target : String) :
    way? records detection source target = way? others detection source target := by
  cases detection with
  | pairwise =>
    change (if target ∈ successors records source then _ else _) = if _ then _ else _
    rw [h.successors_eq hsource]
  | full =>
    -- one bound with room for the nodes of either list, so that only the edges are left to compare
    have hbound : records.length < records.length + others.length + 1 := by omega
    have hbound' : others.length < records.length + others.length + 1 := by omega
    rw [way?_full_eq hbound, way?_full_eq hbound',
      search_congr (fun _ => h.successors_eq) h.inside_of_mem_successors _ hsource]

theorem returnPath?_eq (h : AgreeWithin inside records others) (r : RegistrationRecord)
    {d : Dependency} (hd : ∀ name, d.kind.plainName? = some name → inside name) :
    returnPath? records detection r d = returnPath? others detection r d := by
  unfold returnPath?
  cases hplain : d.kind.plainName? with
  | none => rfl
  | some name => rw [Option.bind_some, Option.bind_some, h.way?_eq (hd name hplain)]

theorem returnPaths_eq (h : AgreeWithin inside records others) {r : RegistrationRecord}
    (hr : ∀ name, r.Needs name → inside name) :
    returnPaths records detection r = returnPaths others detection r :=
  List.filterMap_congr fun _ hd =>
    h.returnPath?_eq r fun name hplain => hr name (RegistrationRecord.needs_of_mem hd hplain)

theorem lazyMismatches_eq (h : AgreeWithin inside records others) {r : RegistrationRecord}
    (hr : ∀ name, r.Defers name → inside name) :
    lazyMismatches records r = lazyMismatches others r := by
  unfold lazyMismatches
  apply List.filter_congr
  intro d hd
  unfold isLazyMismatch
  cases hdeferred : d.kind.deferredName? with
  | none => rfl
  | some name =>
    have hinside := hr name (RegistrationRecord.defers_of_mem hd hdeferred)
    simp only [h.lookup_eq name hinside]

theorem isSound_eq (h : AgreeWithin inside records others) {r : RegistrationRecord}
    (hneeds : ∀ name, r.Needs name → inside name) (hdefers : ∀ name, r.Defers name → inside name) :
    isSound records detection r = isSound others detection r := by
  unfold isSound
  rw [h.returnPaths_eq hneeds, h.lazyMismatches_eq hdefers]

end AgreeWithin
end Graph
end Wiring
