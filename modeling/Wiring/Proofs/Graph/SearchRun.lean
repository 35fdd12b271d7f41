import Wiring.Proofs.Graph.Search

/-! The search as it runs, with one path and one set of visited nodes that all its branches change.
Over finitely many nodes every run comes to its one end, with the answer and the visited nodes of
the search. The path it leaves has grown by the way that was found, or is what it was before. -/
namespace Wiring.Graph

variable {successors : String → List String} {target : String}

/-- What a search, or a part of it, leaves behind. -/
structure Trace where
  found : Bool
  path : List String
  visited : List String
  deriving DecidableEq, Repr

/-- A node that led nowhere is taken off the path. -/
def Trace.leave (t : Trace) : Trace := if t.found then t else { t with path := t.path.dropLast }

@[simp] theorem Trace.found_leave (t : Trace) : t.leave.found = t.found := by
  unfold leave
  split <;> rfl

/-- A run over the edges out of the last node of the path, up to its end. -/
inductive Sweeps (successors : String → List String) (target : String) :
    List String → List String → List String → Trace → Prop where
  | done {path visited : List String} :
    Sweeps successors target [] path visited ⟨false, path, visited⟩
  | reached {rest path visited : List String} :
    Sweeps successors target (target :: rest) path visited ⟨true, path ++ [target], visited⟩
  | passed {next : String} {rest path visited : List String} {after : Trace}
    (hne : next ≠ target) (hmem : next ∈ visited)
    (hrest : Sweeps successors target rest path visited after) :
    Sweeps successors target (next :: rest) path visited after
  | entered {next : String} {rest path visited : List String} {inner : Trace}
    (hne : next ≠ target) (hfresh : next ∉ visited)
    (hinner : Sweeps successors target (successors next) (path ++ [next]) (next :: visited) inner)
    (hfound : inner.found = true) :
    Sweeps successors target (next :: rest) path visited inner.leave
  | returned {next : String} {rest path visited : List String} {inner after : Trace}
    (hne : next ≠ target) (hfresh : next ∉ visited)
    (hinner : Sweeps successors target (successors next) (path ++ [next]) (next :: visited) inner)
    (hvain : inner.found = false)
    (hrest : Sweeps successors target rest inner.leave.path inner.leave.visited after) :
    Sweeps successors target (next :: rest) path visited after

/-- A run of the search from a node, up to its end. -/
def Runs (successors : String → List String) (target node : String) (path visited : List String)
    (after : Trace) : Prop :=
  ∃ inner, Sweeps successors target (successors node) (path ++ [node]) visited inner ∧
    after = inner.leave

/-! ## One end -/

theorem Sweeps.unique {nexts path visited : List String} {after other : Trace}
    (h : Sweeps successors target nexts path visited after)
    (h' : Sweeps successors target nexts path visited other) : after = other := by
  induction h generalizing other with
  | done =>
    cases h'
    rfl
  | reached =>
    cases h' with
    | reached => rfl
    | passed hne => exact absurd rfl hne
    | entered hne => exact absurd rfl hne
    | returned hne => exact absurd rfl hne
  | passed hne hmem hrest ih =>
    cases h' with
    | reached => exact absurd rfl hne
    | passed _ _ hrest' => exact ih hrest'
    | entered _ hfresh => exact absurd hmem hfresh
    | returned _ hfresh => exact absurd hmem hfresh
  | entered hne hfresh hinner hfound ih =>
    cases h' with
    | reached => exact absurd rfl hne
    | passed _ hmem => exact absurd hmem hfresh
    | entered _ _ hinner' => rw [ih hinner']
    | returned _ _ hinner' hvain => simp [ih hinner', hvain] at hfound
  | returned hne hfresh hinner hvain hrest ihinner ihrest =>
    cases h' with
    | reached => exact absurd rfl hne
    | passed _ hmem => exact absurd hmem hfresh
    | entered _ _ hinner' hfound => simp [ihinner hinner', hfound] at hvain
    | returned _ _ hinner' _ hrest' =>
      cases ihinner hinner'
      exact ihrest hrest'

theorem Runs.unique {node : String} {path visited : List String} {after other : Trace}
    (h : Runs successors target node path visited after)
    (h' : Runs successors target node path visited other) : after = other := by
  obtain ⟨inner, hinner, rfl⟩ := h
  obtain ⟨inner', hinner', rfl⟩ := h'
  rw [hinner.unique hinner']

/-- What a search leaves behind that gives the rest of a way and the visited nodes. -/
def Trace.ofOutcome (path : List String) (outcome : Option (List String) × List String) : Trace :=
  ⟨outcome.1.isSome, path ++ outcome.1.getD [], outcome.2⟩

/-- The rest of the way, if one was found, and the visited nodes. -/
def Trace.outcome (path : List String) (t : Trace) : Option (List String) × List String :=
  (if t.found then some (t.path.drop path.length) else none, t.visited)

theorem outcome_ofOutcome (path : List String) (outcome : Option (List String) × List String) :
    (Trace.ofOutcome path outcome).outcome path = outcome := by
  obtain ⟨_ | way, seen⟩ := outcome <;> simp [Trace.ofOutcome, Trace.outcome]

theorem leave_ofOutcome (path : List String) (node : String)
    (outcome : Option (List String) × List String) :
    (Trace.ofOutcome (path ++ [node]) outcome).leave =
      .ofOutcome path (outcome.1.map (node :: ·), outcome.2) := by
  obtain ⟨_ | way, seen⟩ := outcome <;> simp [Trace.ofOutcome, Trace.leave]

theorem sweeps_sweep {nodes : List String} {bound : Nat}
    (hvisit : ∀ next path visited, unvisited nodes visited < bound →
      Runs successors target next path visited
        (.ofOutcome path (search successors target bound next visited)))
    {nexts path visited : List String} (hnexts : nexts ⊆ nodes)
    (hroom : unvisited nodes visited ≤ bound) :
    Sweeps successors target nexts path visited
      (.ofOutcome path (sweep (search successors target bound) target nexts visited)) := by
  induction nexts generalizing visited with
  | nil => simpa [sweep, Trace.ofOutcome] using Sweeps.done
  | cons next rest ih =>
    obtain ⟨hnode, hrest⟩ := List.cons_subset.mp hnexts
    by_cases htarget : next = target
    · rw [sweep, if_pos htarget, htarget]
      exact .reached
    rw [sweep, if_neg htarget]
    by_cases hmem : next ∈ visited
    · rw [if_pos hmem]
      exact .passed htarget hmem (ih hrest hroom)
    rw [if_neg hmem]
    -- A node that is entered is one less to visit, so the smaller bound has room for it.
    have hless := unvisited_cons_lt hnode hmem
    obtain ⟨inner, hinner, hleave⟩ := hvisit next path (next :: visited) (by omega)
    have hsub := (List.cons_subset.mp
      (@subset_search successors target bound next (next :: visited))).2
    cases hs : search successors target bound next (next :: visited) with
    | mk found seen =>
      rw [hs] at hleave hsub
      have hfound : inner.found = found.isSome := by
        rw [← Trace.found_leave, ← hleave]
        rfl
      cases found with
      | some way =>
        rw [hleave]
        exact .entered htarget hmem hinner hfound
      | none =>
        -- The other edges are tried with what the branch in vain has visited.
        have hmono : unvisited nodes seen ≤ unvisited nodes visited := unvisited_mono hsub
        refine .returned htarget hmem hinner hfound ?_
        rw [← hleave]
        simpa [Trace.ofOutcome] using ih hrest (by omega)

/-- Given room for the nodes that are left, the search ends as its run does. -/
theorem runs_search {nodes : List String} (hclosed : ∀ node, successors node ⊆ nodes)
    {bound : Nat} {node : String} {path visited : List String}
    (hroom : unvisited nodes visited < bound) :
    Runs successors target node path visited
      (.ofOutcome path (search successors target bound node visited)) := by
  induction bound generalizing node path visited with
  | zero => omega
  | succ bound ih =>
    have hsweep : Sweeps successors target (successors node) (path ++ [node]) visited _ :=
      sweeps_sweep (fun _ _ _ => ih) (hclosed node) (Nat.le_of_lt_succ hroom)
    exact ⟨_, hsweep, (leave_ofOutcome path node _).symm⟩

/-! ## What a run leaves behind -/

theorem mem_of_sweep {visit : String → List String → Option (List String) × List String}
    (hvisit : ∀ next visited way seen, next ∈ visited → visit next visited = (some way, seen) →
      ∀ name ∈ way, name = target ∨ name ∈ seen)
    {nexts visited way seen : List String}
    (h : sweep visit target nexts visited = (some way, seen)) :
    ∀ name ∈ way, name = target ∨ name ∈ seen := by
  induction nexts generalizing visited with
  | nil => cases h
  | cons next rest ih =>
    unfold sweep at h
    split at h
    · rename_i htarget
      cases h
      simp [htarget]
    · split at h
      · exact ih h
      · cases hv : visit next (next :: visited) with
        | mk found between =>
          rw [hv] at h
          cases found with
          | some way =>
            cases h
            exact hvisit next _ _ _ List.mem_cons_self hv
          | none => exact ih h

/-- The nodes of a way that was found are visited now, but for the target. -/
theorem mem_of_search {bound : Nat} {node : String} {visited way seen : List String}
    (hnode : node ∈ visited)
    (h : search successors target bound node visited = (some way, seen)) :
    ∀ name ∈ way, name = target ∨ name ∈ seen := by
  induction bound generalizing node visited way seen with
  | zero => cases h
  | succ bound ih =>
    have hsub := @subset_search successors target (bound + 1) node visited
    rw [h] at hsub
    unfold search at h
    cases hs : sweep (search successors target bound) target (successors node) visited with
    | mk found after =>
      rw [hs] at h
      cases found with
      | none => cases h
      | some rest =>
        cases h
        have hrest := mem_of_sweep (fun _ _ _ _ hmem => ih hmem) hs
        exact List.forall_mem_cons.mpr ⟨.inr (hsub hnode), hrest⟩

/-- A walk that enters no node visited before cannot end in the target when the search was in
vain: each of its nodes is exhausted, and the next one was then visited by the search. -/
theorem Exhausted.not_isChain {node : String} {visited seen between : List String}
    (h : Exhausted successors target seen node)
    (hexplored : Explored successors target visited seen)
    (hfresh : ∀ name ∈ between, name ∉ visited) :
    ¬ (node :: between ++ [target]).IsChain fun x y => y ∈ successors x := by
  intro hchain
  induction between generalizing node with
  | nil =>
    have hedge : target ∈ successors node := by simpa using hchain
    exact (h target hedge).1 rfl
  | cons next rest ih =>
    obtain ⟨hnext, hrest⟩ := List.forall_mem_cons.mp hfresh
    rw [List.cons_append, List.cons_append, List.isChain_cons_cons] at hchain
    obtain ⟨_, hmem⟩ := h next hchain.1
    exact ih (hexplored.exhausted next hmem hnext) hrest hchain.2

/-- Over finitely many nodes every run of the search comes to exactly one end, whatever path and
visited nodes it starts with, and the search answers as its run ends. It finds the target exactly
where a walk leads there whose nodes between the ends have not been visited. The path has then
grown by such a walk; otherwise it is what it was, and the nodes that have been added to the visited
ones have no edge to the target or to a node that is still not visited. -/
theorem search_ends {nodes : List String} (hclosed : ∀ node, successors node ⊆ nodes)
    {node : String} {visited : List String} (hnode : node ∈ visited) (path : List String) :
    ∃ after, Runs successors target node path visited after ∧
      (∀ other, Runs successors target node path visited other → other = after) ∧
      (∀ bound, nodes.length < bound →
        search successors target bound node visited = after.outcome path) ∧
      (after.found = true ↔ ∃ between : List String, (∀ name ∈ between, name ∉ visited) ∧
        (node :: between ++ [target]).IsChain fun x y => y ∈ successors x) ∧
      (after.found = false →
        after.path = path ∧ Explored successors target visited after.visited ∧
          Exhausted successors target after.visited node) ∧
      (after.found = true → ∃ between : List String,
        after.path = path ++ (node :: between ++ [target]) ∧ between.Nodup ∧
        (∀ name ∈ between, name ∉ visited ∧ name ∈ after.visited) ∧
        (node :: between ++ [target]).IsChain fun x y => y ∈ successors x) := by
  have hroom : ∀ bound, nodes.length < bound → unvisited nodes visited < bound :=
    fun bound hbound => (unvisited_le_length nodes visited).trans_lt hbound
  have hlast := hroom (nodes.length + 1) (Nat.lt_succ_self _)
  have hruns : Runs successors target node path visited _ := runs_search hclosed hlast
  refine ⟨_, hruns, fun other hother => hother.unique hruns, fun bound hbound => ?_, ?_⟩
  · have hbounded : Runs successors target node path visited _ :=
      runs_search hclosed (hroom bound hbound)
    rw [hruns.unique hbounded, outcome_ofOutcome]
  cases hs : search successors target (nodes.length + 1) node visited with
  | mk found seen =>
    cases found with
    | none =>
      obtain ⟨hexplored, hexhausted⟩ := explored_of_search hclosed hlast hs
      refine ⟨⟨nofun, ?_⟩, fun _ => ⟨List.append_nil path, hexplored, hexhausted⟩, nofun⟩
      rintro ⟨between, hfresh, hchain⟩
      exact absurd hchain (hexhausted.not_isChain hexplored hfresh)
    | some way =>
      obtain ⟨between, rfl, hnodup, htarget, hfresh, hchain⟩ :=
        (freshWay_of_search (congrArg Prod.fst hs)).exists_between
      refine ⟨⟨fun _ => ⟨between, hfresh, hchain⟩, fun _ => rfl⟩, nofun, fun _ => ?_⟩
      refine ⟨between, rfl, hnodup, fun name hmem => ⟨hfresh name hmem, ?_⟩, hchain⟩
      -- The target itself is not marked as visited when it is reached.
      refine (mem_of_search hnode hs name (by simp [hmem])).resolve_left ?_
      rintro rfl
      exact htarget hmem

/-- The first edge out of `IA` leads to a dead end, which the second edge meets again. -/
def deadEndFirst : String → List String
  | "IA" => ["IB", "IC"]
  | "IB" => ["ID"]
  | "IC" => ["ID", "IA"]
  | _ => []

theorem search_ends_deadEndFirst :
    (∀ node, deadEndFirst node ⊆ ["IA", "IB", "IC", "ID"]) ∧ "IA" ∈ ["IA"] ∧
    ∃ after, Runs deadEndFirst "IA" "IA" ["IZ"] ["IA"] after ∧ after.found = true ∧
      after.outcome ["IZ"] = (some ["IA", "IC", "IA"], ["IC", "ID", "IB", "IA"]) := by
  have hclosed : ∀ node, deadEndFirst node ⊆ ["IA", "IB", "IC", "ID"] := by
    intro node
    unfold deadEndFirst
    split <;> decide
  have hnode : "IA" ∈ ["IA"] := List.mem_singleton_self "IA"
  obtain ⟨after, hruns, _, hsearch, hfound, _⟩ :=
    @search_ends deadEndFirst "IA" _ hclosed "IA" ["IA"] hnode ["IZ"]
  refine ⟨hclosed, hnode, after, hruns, hfound.mpr ⟨["IC"], by decide, ?_⟩, ?_⟩
  · simp [deadEndFirst]
  · rw [← hsearch 5 (by decide)]
    decide

end Wiring.Graph
