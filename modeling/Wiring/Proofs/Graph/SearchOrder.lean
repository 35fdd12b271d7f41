import Wiring.Proofs.Graph.Search

/-! Which of several ways a search finds. Visited nodes that do not lead to the target play no
part in it, so a search that has failed in some branches goes on as if it had just begun. From the
target itself the search therefore leaves through the first successor that leads back, and finds
the same way that a search from this successor alone finds. -/
namespace Wiring.Graph

variable {successors : String → List String} {target : String}

/-- The first node leads to the second over at least one edge. -/
def Reaches (successors : String → List String) : String → String → Prop :=
  Relation.TransGen fun x y => y ∈ successors x

/-- The same nodes are visited among those that lead to the target. -/
def Agree (successors : String → List String) (target : String) (visited seen : List String) :
    Prop :=
  ∀ node, node ≠ target → Reaches successors node target → (node ∈ visited ↔ node ∈ seen)

theorem Agree.refl (visited : List String) : Agree successors target visited visited :=
  fun _ _ _ => Iff.rfl

theorem Agree.symm {visited seen : List String} (h : Agree successors target visited seen) :
    Agree successors target seen visited :=
  fun node hnode hreach => (h node hnode hreach).symm

theorem Agree.trans {first second third : List String}
    (h : Agree successors target first second) (h' : Agree successors target second third) :
    Agree successors target first third :=
  fun node hnode hreach => (h node hnode hreach).trans (h' node hnode hreach)

theorem Agree.cons {visited seen : List String} (h : Agree successors target visited seen)
    (next : String) : Agree successors target (next :: visited) (next :: seen) := by
  intro node hnode hreach
  rw [List.mem_cons, List.mem_cons, h node hnode hreach]

/-! ## Branches in vain -/

theorem reaches_of_mem_sweep {visit : String → List String → Option (List String) × List String}
    (hvisit : ∀ next seen node, node ∈ (visit next seen).2 →
      node ∈ seen ∨ Reaches successors next node)
    {start node : String} {nexts visited : List String} (hnexts : nexts ⊆ successors start)
    (h : node ∈ (sweep visit target nexts visited).2) :
    node ∈ visited ∨ Reaches successors start node := by
  induction nexts generalizing visited with
  | nil => exact Or.inl h
  | cons next rest ih =>
    obtain ⟨hedge, hrest⟩ := List.cons_subset.mp hnexts
    have hnext : ∀ other, other ∈ (visit next (next :: visited)).2 →
        other ∈ visited ∨ Reaches successors start other := by
      intro other hmem
      rcases hvisit next _ _ hmem with hseen | hreach
      · rcases List.mem_cons.mp hseen with rfl | hvisited
        · exact Or.inr (.single hedge)
        · exact Or.inl hvisited
      · exact Or.inr (.head hedge hreach)
    unfold sweep at h
    split at h
    · exact Or.inl h
    · split at h
      · exact ih hrest h
      · cases hv : visit next (next :: visited) with
        | mk found seen =>
          rw [hv] at h hnext
          cases found with
          | some way => exact hnext node h
          | none =>
            rcases ih hrest h with hseen | hreach
            · exact hnext node hseen
            · exact Or.inr hreach

/-- The search visits only what it can reach. -/
theorem reaches_of_mem_search {bound : Nat} {start node : String} {visited : List String}
    (h : node ∈ (search successors target bound start visited).2) :
    node ∈ visited ∨ Reaches successors start node := by
  induction bound generalizing start node visited with
  | zero => exact Or.inl h
  | succ bound ih => exact reaches_of_mem_sweep (fun _ _ _ => ih) (List.Subset.refl _) h

theorem subset_of_search_cons {bound : Nat} {next : String} {visited seen : List String}
    {found : Option (List String)}
    (h : search successors target bound next (next :: visited) = (found, seen)) :
    visited ⊆ seen := by
  have hsub := (List.cons_subset.mp
    (@subset_search successors target bound next (next :: visited))).2
  rw [h] at hsub
  exact hsub

/-- A node that does not lead to the target is passed over without consequence. -/
theorem sweep_cons_of_not_reaches {bound : Nat} {next : String} (hne : next ≠ target)
    (h : ¬ Reaches successors next target) (rest visited : List String) :
    ∃ seen, visited ⊆ seen ∧ Agree successors target visited seen ∧
      sweep (search successors target bound) target (next :: rest) visited =
        sweep (search successors target bound) target rest seen := by
  by_cases hmem : next ∈ visited
  · refine ⟨visited, List.Subset.refl _, .refl _, ?_⟩
    rw [sweep, if_neg hne, if_pos hmem]
  · have hreached : ∀ node ∈ (search successors target bound next (next :: visited)).2,
        node ∈ next :: visited ∨ Reaches successors next node :=
      fun _ => reaches_of_mem_search
    cases hs : search successors target bound next (next :: visited) with
    | mk found seen =>
      have hfound : found = none := by
        cases found with
        | none => rfl
        | some way => exact absurd (freshWay_of_search (congrArg Prod.fst hs)).transGen h
      rw [hs] at hreached
      have hsub := subset_of_search_cons hs
      refine ⟨seen, hsub, ?_, by rw [sweep, if_neg hne, if_neg hmem, hs, hfound]⟩
      intro node _ hreach
      refine ⟨fun hvisited => hsub hvisited, fun hseen => ?_⟩
      rcases hreached node hseen with hvisited | hnext
      · rcases List.mem_cons.mp hvisited with rfl | hvisited
        · exact absurd hreach h
        · exact hvisited
      · exact absurd (hnext.trans hreach) h

/-! ## Searches that agree -/

/-- Two searches with the same way, after which the same nodes that matter are visited. -/
structure SameOutcome (successors : String → List String) (target : String)
    (first second : Option (List String) × List String) : Prop where
  way : first.1 = second.1
  agree : Agree successors target first.2 second.2

/-- Both sweeps explore the next node, and go on alike if that is in vain. -/
theorem SameOutcome.sweep_cons {bound bound' : Nat} {next : String}
    {rest visited seen : List String} (hne : next ≠ target) (hfresh : next ∉ visited)
    (hfresh' : next ∉ seen)
    (h : SameOutcome successors target (search successors target bound next (next :: visited))
      (search successors target bound' next (next :: seen)))
    (hrest : ∀ after after', visited ⊆ after → seen ⊆ after' →
      Agree successors target after after' →
      SameOutcome successors target (sweep (search successors target bound) target rest after)
        (sweep (search successors target bound') target rest after')) :
    SameOutcome successors target
      (sweep (search successors target bound) target (next :: rest) visited)
      (sweep (search successors target bound') target (next :: rest) seen) := by
  rw [sweep, sweep, if_neg hne, if_neg hne, if_neg hfresh, if_neg hfresh']
  cases hs : search successors target bound next (next :: visited) with
  | mk found after =>
    cases hs' : search successors target bound' next (next :: seen) with
    | mk found' after' =>
      rw [hs, hs'] at h
      obtain rfl : found = found' := h.way
      cases found with
      | some way => exact ⟨rfl, h.agree⟩
      | none =>
        exact hrest after after' (subset_of_search_cons hs) (subset_of_search_cons hs') h.agree

theorem sameOutcome_sweep {nodes : List String} {bound bound' : Nat}
    (hvisit : ∀ next visited seen, unvisited nodes visited < bound →
      unvisited nodes seen < bound' → Agree successors target visited seen →
      SameOutcome successors target (search successors target bound next visited)
        (search successors target bound' next seen))
    {nexts visited seen : List String} (hnexts : nexts ⊆ nodes)
    (hroom : unvisited nodes visited ≤ bound) (hroom' : unvisited nodes seen ≤ bound')
    (h : Agree successors target visited seen) :
    SameOutcome successors target (sweep (search successors target bound) target nexts visited)
      (sweep (search successors target bound') target nexts seen) := by
  induction nexts generalizing visited seen with
  | nil => exact ⟨rfl, h⟩
  | cons next rest ih =>
    obtain ⟨hnode, hrest⟩ := List.cons_subset.mp hnexts
    by_cases htarget : next = target
    · rw [sweep, sweep, if_pos htarget, if_pos htarget]
      exact ⟨rfl, h⟩
    by_cases hlive : Reaches successors next target
    · have hiff := h next htarget hlive
      by_cases hmem : next ∈ visited
      · rw [sweep, sweep, if_neg htarget, if_neg htarget, if_pos hmem, if_pos (hiff.mp hmem)]
        exact ih hrest hroom hroom' h
      · have hmem' : next ∉ seen := fun hseen => hmem (hiff.mpr hseen)
        have hless := unvisited_cons_lt hnode hmem
        have hless' := unvisited_cons_lt hnode hmem'
        have hsame := hvisit next _ _ (by omega) (by omega) (h.cons next)
        refine hsame.sweep_cons htarget hmem hmem' ?_
        intro after after' hsub hsub' hagree
        have hmono := @unvisited_mono nodes _ _ hsub
        have hmono' := @unvisited_mono nodes _ _ hsub'
        exact ih hrest (by omega) (by omega) hagree
    -- neither sweep gains anything from `next`, though one may skip it and the other explore it
    · obtain ⟨after, hsub, hafter, heq⟩ :=
        @sweep_cons_of_not_reaches successors target bound next htarget hlive rest visited
      obtain ⟨after', hsub', hafter', heq'⟩ :=
        @sweep_cons_of_not_reaches successors target bound' next htarget hlive rest seen
      have hmono := @unvisited_mono nodes _ _ hsub
      have hmono' := @unvisited_mono nodes _ _ hsub'
      rw [heq, heq']
      exact ih hrest (by omega) (by omega) ((hafter.symm.trans h).trans hafter')

/-- The way found depends on the visited nodes that lead to the target only. -/
theorem sameOutcome_search {nodes : List String} (hclosed : ∀ node, successors node ⊆ nodes)
    {bound bound' : Nat} {node : String} {visited seen : List String}
    (hroom : unvisited nodes visited < bound) (hroom' : unvisited nodes seen < bound')
    (h : Agree successors target visited seen) :
    SameOutcome successors target (search successors target bound node visited)
      (search successors target bound' node seen) := by
  induction bound generalizing bound' node visited seen with
  | zero => omega
  | succ bound ih =>
    cases bound' with
    | zero => omega
    | succ bound' =>
      have hsweep := sameOutcome_sweep (fun _ _ _ => ih) (hclosed node)
        (Nat.le_of_lt_succ hroom) (Nat.le_of_lt_succ hroom') h
      exact ⟨congrArg (Option.map (node :: ·)) hsweep.way, hsweep.agree⟩

/-! ## A search from its own target -/

theorem sweep_eq_of_first {nodes : List String} (hclosed : ∀ node, successors node ⊆ nodes)
    {bound bound' : Nat} {next : String} {before after visited : List String}
    (hbefore : ∀ node ∈ before, node ≠ target ∧ ¬ Reaches successors node target)
    (hnext : Reaches successors next target) (hmem : next ∈ nodes)
    (hroom : unvisited nodes visited ≤ bound) (hroom' : unvisited nodes [next] < bound')
    (hvisited : Agree successors target visited []) :
    (sweep (search successors target bound) target (before ++ next :: after) visited).1 =
      if next = target then some [target]
      else (search successors target bound' next [next]).1 := by
  induction before generalizing visited with
  | nil =>
    rw [List.nil_append, sweep]
    split
    · rename_i htarget
      rw [htarget]
    · rename_i htarget
      have hfresh : next ∉ visited := fun h => by
        simpa using (hvisited next htarget hnext).mp h
      have hless := unvisited_cons_lt hmem hfresh
      have hway := (sameOutcome_search hclosed (by omega) hroom'
        (hvisited.cons next) : SameOutcome successors target
          (search successors target bound next (next :: visited)) _).way
      have hsome := (isSome_search_iff hclosed hroom').mpr hnext
      rw [if_neg hfresh]
      rw [← hway] at hsome ⊢
      cases hs : search successors target bound next (next :: visited) with
      | mk found seen =>
        rw [hs] at hsome
        cases found with
        | some way => rfl
        | none => contradiction
  | cons node rest ih =>
    obtain ⟨⟨hne, hdead⟩, hrest⟩ := List.forall_mem_cons.mp hbefore
    obtain ⟨seen, hsub, hagree, heq⟩ := @sweep_cons_of_not_reaches successors target bound node
      hne hdead (rest ++ next :: after) visited
    have hmono := @unvisited_mono nodes _ _ hsub
    rw [List.cons_append, heq]
    exact ih hrest (by omega) (hagree.symm.trans hvisited)

/-- A search from its target leaves through the first successor that leads back to it, either at
once or on the way that is found from this successor alone. -/
theorem search_self_eq {nodes : List String} (hclosed : ∀ node, successors node ⊆ nodes)
    {bound bound' : Nat} {next : String} {before after : List String}
    (hsuccessors : successors target = before ++ next :: after)
    (hbefore : ∀ node ∈ before, node ≠ target ∧ ¬ Reaches successors node target)
    (hnext : Reaches successors next target)
    (hroom : unvisited nodes [target] < bound) (hroom' : unvisited nodes [next] < bound') :
    (search successors target bound target [target]).1 =
      if next = target then some [target, target]
      else (search successors target bound' next [next]).1.map (target :: ·) := by
  cases bound with
  | zero => omega
  | succ bound =>
    have hmem : next ∈ nodes := hclosed target (by simp [hsuccessors])
    have hstart : Agree successors target [target] [] := by
      intro node hnode _
      simp [hnode]
    change (sweep (search successors target bound) target (successors target) [target]).1.map
      (target :: ·) = _
    rw [hsuccessors, sweep_eq_of_first hclosed hbefore hnext hmem (by omega) hroom' hstart]
    split <;> rfl

end Wiring.Graph
