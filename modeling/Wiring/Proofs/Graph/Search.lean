import Mathlib.Data.Finset.Card
import Mathlib.Logic.Relation
import Wiring.Graph.Search

/-! What a search finds and what it leaves behind. A found way passes only nodes that were not
visited before, each of them once. A search that finds nothing leaves a set of nodes that no edge
leaves and from which no edge enters the target; the visited nodes, although all branches share
them, therefore hide no way. -/
namespace Wiring.Graph

variable {successors : String → List String} {target : String}

/-- A way of at least one edge from a node to the target. The nodes between differ from the
target, from each other, and from the nodes visited at its start. -/
inductive FreshWay (successors : String → List String) (target : String) :
    List String → String → List String → Prop where
  | last {visited : List String} {node : String} (hedge : target ∈ successors node) :
    FreshWay successors target visited node [node, target]
  | step {visited : List String} {node next : String} {way : List String}
    (hedge : next ∈ successors node) (htarget : next ≠ target) (hfresh : next ∉ visited)
    (hway : FreshWay successors target (next :: visited) next way) :
    FreshWay successors target visited node (node :: way)

theorem FreshWay.mono {visited seen : List String} {node : String} {way : List String}
    (h : FreshWay successors target seen node way) (hsub : visited ⊆ seen) :
    FreshWay successors target visited node way := by
  induction h generalizing visited with
  | last hedge => exact .last hedge
  | step hedge htarget hfresh hway ih =>
    refine .step hedge htarget (fun hmem => hfresh (hsub hmem)) (ih ?_)
    exact List.cons_subset_cons _ hsub

theorem FreshWay.transGen {visited : List String} {node : String} {way : List String}
    (h : FreshWay successors target visited node way) :
    Relation.TransGen (fun x y => y ∈ successors x) node target := by
  induction h with
  | last hedge => exact .single hedge
  | step hedge htarget hfresh hway ih => exact .head hedge ih

theorem FreshWay.exists_between {visited : List String} {node : String} {way : List String}
    (h : FreshWay successors target visited node way) :
    ∃ between, way = node :: between ++ [target] ∧ between.Nodup ∧ target ∉ between ∧
      (∀ name ∈ between, name ∉ visited) ∧
      (node :: between ++ [target]).IsChain fun x y => y ∈ successors x := by
  induction h with
  | last hedge => exact ⟨[], rfl, .nil, by simp, by simp, by simpa using hedge⟩
  | step hedge htarget hfresh hway ih =>
    rename_i visited node next way
    obtain ⟨between, rfl, hnodup, hnot, hunvisited, hchain⟩ := ih
    have hnext : next ∉ between := fun hmem => hunvisited next hmem List.mem_cons_self
    refine ⟨next :: between, rfl, List.nodup_cons.mpr ⟨hnext, hnodup⟩, ?_, ?_, ?_⟩
    · exact List.not_mem_cons_of_ne_of_not_mem htarget.symm hnot
    · intro name hmem hvisited
      rcases List.mem_cons.mp hmem with rfl | hbetween
      · exact hfresh hvisited
      · exact hunvisited name hbetween (List.mem_cons_of_mem next hvisited)
    · exact .cons_cons hedge hchain

section Visited

variable {visit : String → List String → Option (List String) × List String}

theorem subset_sweep (hvisit : ∀ next seen, seen ⊆ (visit next seen).2)
    (nexts visited : List String) : visited ⊆ (sweep visit target nexts visited).2 := by
  induction nexts generalizing visited with
  | nil => exact List.Subset.refl _
  | cons next rest ih =>
    unfold sweep
    split
    · exact List.Subset.refl _
    · split
      · exact ih visited
      · have hsub := (List.cons_subset.mp (hvisit next (next :: visited))).2
        cases hv : visit next (next :: visited) with
        | mk found seen =>
          rw [hv] at hsub
          cases found with
          | some way => exact hsub
          | none => exact List.Subset.trans hsub (ih seen)

theorem subset_search (bound : Nat) (node : String) (visited : List String) :
    visited ⊆ (search successors target bound node visited).2 := by
  induction bound generalizing node visited with
  | zero => exact List.Subset.refl _
  | succ bound ih => exact subset_sweep ih (successors node) visited

end Visited

/-! ## A search that succeeds -/

theorem freshWay_of_sweep {visit : String → List String → Option (List String) × List String}
    (hgrows : ∀ next seen, seen ⊆ (visit next seen).2)
    (hvisit : ∀ next seen way, (visit next seen).1 = some way →
      FreshWay successors target seen next way)
    {node : String} {nexts visited way : List String} (hnexts : nexts ⊆ successors node)
    (h : (sweep visit target nexts visited).1 = some way) :
    FreshWay successors target visited node (node :: way) := by
  induction nexts generalizing visited with
  | nil => contradiction
  | cons next rest ih =>
    obtain ⟨hedge, hrest⟩ := List.cons_subset.mp hnexts
    unfold sweep at h
    split at h
    · rename_i htarget
      cases h
      rw [htarget] at hedge ⊢
      exact .last hedge
    · rename_i htarget
      split at h
      · exact ih hrest h
      · rename_i hfresh
        have hfound := hvisit next (next :: visited)
        have hsub := (List.cons_subset.mp (hgrows next (next :: visited))).2
        cases hv : visit next (next :: visited) with
        | mk found seen =>
          rw [hv] at h hfound hsub
          cases found with
          | some rest' =>
            cases h
            exact .step hedge htarget hfresh (hfound way rfl)
          -- the branch in vain has only added to the visited nodes, so the later way stays fresh
          | none => exact (ih hrest h).mono hsub

/-- What the search finds is a way over nodes that were not visited. -/
theorem freshWay_of_search {bound : Nat} {node : String} {visited way : List String}
    (h : (search successors target bound node visited).1 = some way) :
    FreshWay successors target visited node way := by
  induction bound generalizing node visited way with
  | zero => contradiction
  | succ bound ih =>
    obtain ⟨rest, hrest, rfl⟩ := Option.map_eq_some_iff.mp h
    exact freshWay_of_sweep (subset_search bound) (fun _ _ _ => ih) (List.Subset.refl _) hrest

/-! ## A search that fails -/

/-- Every edge out of the node ends in a visited node, and none in the target. -/
def Exhausted (successors : String → List String) (target : String) (visited : List String)
    (node : String) : Prop :=
  ∀ next ∈ successors node, next ≠ target ∧ next ∈ visited

theorem Exhausted.mono {visited seen : List String} {node : String}
    (h : Exhausted successors target visited node) (hsub : visited ⊆ seen) :
    Exhausted successors target seen node :=
  fun next hnext => ⟨(h next hnext).1, hsub (h next hnext).2⟩

/-- What a search in vain adds to the visited nodes: exhausted ones only. -/
structure Explored (successors : String → List String) (target : String)
    (visited seen : List String) : Prop where
  grows : visited ⊆ seen
  exhausted : ∀ node ∈ seen, node ∉ visited → Exhausted successors target seen node

theorem Explored.refl (visited : List String) : Explored successors target visited visited :=
  ⟨List.Subset.refl _, fun _ hmem hnot => absurd hmem hnot⟩

theorem Explored.trans {first second third : List String}
    (h : Explored successors target first second) (h' : Explored successors target second third) :
    Explored successors target first third := by
  refine ⟨List.Subset.trans h.grows h'.grows, fun node hmem hnot => ?_⟩
  by_cases hsecond : node ∈ second
  · exact (h.exhausted node hsecond hnot).mono h'.grows
  · exact h'.exhausted node hmem hsecond

theorem Explored.of_cons {next : String} {visited seen : List String}
    (h : Explored successors target (next :: visited) seen)
    (hnext : Exhausted successors target seen next) :
    Explored successors target visited seen := by
  refine ⟨(List.cons_subset.mp h.grows).2, fun node hmem hnot => ?_⟩
  by_cases heq : node = next
  · rw [heq]
    exact hnext
  · exact h.exhausted node hmem (List.not_mem_cons_of_ne_of_not_mem heq hnot)

/-- How many of the nodes are left to visit. -/
def unvisited (nodes visited : List String) : Nat :=
  (nodes.toFinset \ visited.toFinset).card

theorem unvisited_le_length (nodes visited : List String) : unvisited nodes visited ≤ nodes.length :=
  (Finset.card_le_card Finset.sdiff_subset).trans (List.toFinset_card_le nodes)

theorem unvisited_mono {nodes visited seen : List String} (hsub : visited ⊆ seen) :
    unvisited nodes seen ≤ unvisited nodes visited := by
  apply Finset.card_le_card
  apply Finset.sdiff_subset_sdiff (Finset.Subset.refl _)
  intro node hmem
  rw [List.mem_toFinset] at hmem ⊢
  exact hsub hmem

theorem unvisited_cons_lt {nodes visited : List String} {next : String} (hnode : next ∈ nodes)
    (hfresh : next ∉ visited) : unvisited nodes (next :: visited) < unvisited nodes visited := by
  apply Finset.card_lt_card
  rw [Finset.ssubset_iff_of_subset]
  · exact ⟨next, by simp [hnode, hfresh], by simp⟩
  · intro node hmem
    simp only [Finset.mem_sdiff, List.mem_toFinset, List.mem_cons, not_or] at hmem ⊢
    exact ⟨hmem.1, hmem.2.2⟩

theorem explored_of_sweep {visit : String → List String → Option (List String) × List String}
    {nodes : List String} {bound : Nat}
    (hvisit : ∀ next seen seen', unvisited nodes seen < bound → visit next seen = (none, seen') →
      Explored successors target seen seen' ∧ Exhausted successors target seen' next)
    {nexts visited seen : List String} (hnexts : nexts ⊆ nodes)
    (hroom : unvisited nodes visited ≤ bound)
    (h : sweep visit target nexts visited = (none, seen)) :
    Explored successors target visited seen ∧ ∀ next ∈ nexts, next ≠ target ∧ next ∈ seen := by
  induction nexts generalizing visited with
  | nil =>
    cases h
    exact ⟨.refl _, by simp⟩
  | cons next rest ih =>
    obtain ⟨hnode, hrest⟩ := List.cons_subset.mp hnexts
    unfold sweep at h
    split at h
    · cases h
    · rename_i htarget
      split at h
      · rename_i hmem
        obtain ⟨hexplored, hall⟩ := ih hrest hroom h
        exact ⟨hexplored, List.forall_mem_cons.mpr ⟨⟨htarget, hexplored.grows hmem⟩, hall⟩⟩
      · rename_i hfresh
        cases hv : visit next (next :: visited) with
        | mk found between =>
          rw [hv] at h
          cases found with
          | some way => cases h
          | none =>
            -- `next` is one node less to visit, which pays for the smaller bound of its own search
            have hless := unvisited_cons_lt hnode hfresh
            obtain ⟨hnext, hexhausted⟩ := hvisit next _ _ (by omega) hv
            have hfirst := hnext.of_cons hexhausted
            have hmono := @unvisited_mono nodes _ _ hfirst.grows
            obtain ⟨hexplored, hall⟩ := ih hrest (by omega) h
            have hmem : next ∈ seen := hexplored.grows (hnext.grows List.mem_cons_self)
            exact ⟨hfirst.trans hexplored, List.forall_mem_cons.mpr ⟨⟨htarget, hmem⟩, hall⟩⟩

/-- A search in vain exhausts its node and every node it adds, given a bound above the number of
nodes left. -/
theorem explored_of_search {nodes : List String} (hclosed : ∀ node, successors node ⊆ nodes)
    {bound : Nat} {node : String} {visited seen : List String}
    (hroom : unvisited nodes visited < bound)
    (h : search successors target bound node visited = (none, seen)) :
    Explored successors target visited seen ∧ Exhausted successors target seen node := by
  induction bound generalizing node visited seen with
  | zero => omega
  | succ bound ih =>
    unfold search at h
    cases hs : sweep (search successors target bound) target (successors node) visited with
    | mk found after =>
      rw [hs] at h
      cases found with
      | some way => cases h
      | none =>
        cases h
        exact explored_of_sweep (fun _ _ _ => ih) (hclosed node) (by omega) hs

/-- No way leads out of a set of exhausted nodes. -/
theorem not_transGen_of_exhausted {source : String} {seen : List String}
    (hsource : source ∈ seen) (hall : ∀ node ∈ seen, Exhausted successors target seen node) :
    ¬ Relation.TransGen (fun x y => y ∈ successors x) source target := by
  -- a way from the source stays among the exhausted nodes, step by step
  have hinside : ∀ node, Relation.TransGen (fun x y => y ∈ successors x) source node →
      node ≠ target ∧ node ∈ seen := by
    intro node hway
    induction hway with
    | single hedge => exact hall source hsource _ hedge
    | tail hway hedge ih => exact hall _ ih.2 _ hedge
  exact fun hway => (hinside target hway).1 rfl

/-- From a single visited node the search answers exactly whether the target can be reached. -/
theorem isSome_search_iff {nodes : List String} (hclosed : ∀ node, successors node ⊆ nodes)
    {bound : Nat} {source : String} (hroom : unvisited nodes [source] < bound) :
    (search successors target bound source [source]).1.isSome ↔
      Relation.TransGen (fun x y => y ∈ successors x) source target := by
  constructor
  · intro h
    obtain ⟨way, hway⟩ := Option.isSome_iff_exists.mp h
    exact (freshWay_of_search hway).transGen
  · intro hreach
    cases hs : search successors target bound source [source] with
    | mk found seen =>
      cases found with
      | some way => rfl
      | none =>
        obtain ⟨hexplored, hexhausted⟩ := explored_of_search hclosed hroom hs
        refine absurd hreach (not_transGen_of_exhausted (hexplored.grows List.mem_cons_self) ?_)
        intro node hmem
        by_cases heq : node = source
        · rw [heq]
          exact hexhausted
        · exact hexplored.exhausted node hmem (by simpa using heq)

end Wiring.Graph
