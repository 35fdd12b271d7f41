import Mathlib.Data.List.Chain
import Mathlib.Data.List.Rotate
import Mathlib.Data.String.Basic
import Wiring.Graph.Cycle

/-! The identity of a cycle stands for the cycle up to rotation: it is the rotation of the nodes that
begins with the least name, and cycles that pass no node twice have one identity exactly when they
are rotations of each other. A step from one node to the next is kept by every rotation. -/
namespace Wiring.Graph

/-! ## The least name -/

theorem lesser_eq_min (a b : String) : lesser a b = min a b := by
  unfold lesser
  split
  · rename_i hlt
    exact (min_eq_right (le_of_lt hlt)).symm
  · rename_i hnot
    exact (min_eq_left (not_lt.mp hnot)).symm

theorem leastName?_eq_min? (names : List String) : leastName? names = names.min? := by
  have hlesser : lesser = min := funext fun a => funext (lesser_eq_min a)
  cases names with
  | nil => rfl
  | cons name rest =>
    change some (rest.foldl lesser name) = some (rest.foldl min name)
    rw [hlesser]

theorem leastName?_eq_some_iff (names : List String) (name : String) :
    leastName? names = some name ↔ name ∈ names ∧ ∀ other ∈ names, name ≤ other := by
  rw [leastName?_eq_min?]
  exact List.min?_eq_some_iff

theorem leastName?_eq_none_iff (names : List String) : leastName? names = none ↔ names = [] := by
  cases names <;> simp [leastName?]

theorem leastName?_eq_of_perm {names others : List String} (h : names.Perm others) :
    leastName? names = leastName? others := by
  cases hleast : leastName? others with
  | none =>
    rw [leastName?_eq_none_iff] at hleast ⊢
    exact List.Perm.eq_nil (hleast ▸ h)
  | some least =>
    rw [leastName?_eq_some_iff] at hleast ⊢
    exact ⟨h.mem_iff.mpr hleast.1, fun other hmem => hleast.2 other (h.mem_iff.mp hmem)⟩

/-! ## Rotations -/

theorem rotateTo_isRotated (start : String) (names : List String) :
    (rotateTo start names).IsRotated names := by
  have happend := @List.isRotated_append _ (names.dropWhile (· != start))
    (names.takeWhile (· != start))
  rw [List.takeWhile_append_dropWhile] at happend
  exact happend

theorem head?_rotateTo {start : String} {names : List String} (h : start ∈ names) :
    (rotateTo start names).head? = some start := by
  obtain ⟨before, after, rfl, hfirst⟩ := List.eq_append_cons_of_mem h
  have hbefore : ∀ name ∈ before, (name != start) = true := by
    intro name hmem
    rw [bne_iff_ne]
    rintro rfl
    exact hfirst hmem
  unfold rotateTo
  rw [List.dropWhile_append_of_pos hbefore]
  simp

/-- Of the rotations of a list without repetitions, each begins with another node. -/
theorem eq_of_isRotated_of_head? {names others : List String} (h : names.IsRotated others)
    (hnodup : names.Nodup) (hhead : names.head? = others.head?) : names = others := by
  obtain ⟨n, hn, rfl⟩ := List.isRotated_iff_mod.mp h
  rcases Nat.lt_or_eq_of_le hn with hlt | heq
  · rw [List.head?_rotate hlt, List.head?_eq_getElem?] at hhead
    have hzero : 0 = n := (List.getElem?_inj (by omega) hnodup).mp hhead
    rw [← hzero, List.rotate_zero]
  · rw [heq, List.rotate_length]

theorem cycleIdentity_isRotated (cycle : List String) :
    (cycleIdentity cycle).IsRotated cycle.dropLast := by
  unfold cycleIdentity
  split
  · exact rotateTo_isRotated _ _
  · rename_i hnone
    rw [leastName?_eq_none_iff] at hnone
    rw [hnone]

/-- Cycles that pass no node twice have one identity exactly when they are rotations. -/
theorem cycleIdentity_eq_iff {cycle other : List String} (hnodup : cycle.dropLast.Nodup) :
    cycleIdentity cycle = cycleIdentity other ↔ cycle.dropLast.IsRotated other.dropLast := by
  constructor
  · intro heq
    have hfirst := (cycleIdentity_isRotated cycle).symm
    rw [heq] at hfirst
    exact hfirst.trans (cycleIdentity_isRotated other)
  · intro hrotated
    have hleast := leastName?_eq_of_perm hrotated.perm
    unfold cycleIdentity
    rw [hleast]
    cases hname : leastName? other.dropLast with
    | none => rfl
    | some least =>
      have hmem := ((leastName?_eq_some_iff _ _).mp hname).1
      have hmem' := ((leastName?_eq_some_iff _ _).mp (hleast.trans hname)).1
      have hstart := rotateTo_isRotated least cycle.dropLast
      apply eq_of_isRotated_of_head?
      · exact (hstart.trans hrotated).trans (rotateTo_isRotated least other.dropLast).symm
      · exact hstart.nodup_iff.mpr hnodup
      · rw [head?_rotateTo hmem, head?_rotateTo hmem']

/-! ## Canonical form -/

theorem head?_cycleIdentity {cycle : List String} {least : String}
    (h : leastName? cycle.dropLast = some least) : (cycleIdentity cycle).head? = some least := by
  unfold cycleIdentity
  rw [h]
  exact head?_rotateTo ((leastName?_eq_some_iff _ _).mp h).1

theorem cycleIdentity_eq_iff_head? {cycle names : List String} (hnodup : cycle.dropLast.Nodup)
    (hne : cycle.dropLast ≠ []) :
    cycleIdentity cycle = names ↔
      names.IsRotated cycle.dropLast ∧
        ∃ least ∈ names.head?, ∀ name ∈ cycle.dropLast, least ≤ name := by
  have hrotated := cycleIdentity_isRotated cycle
  constructor
  · rintro rfl
    have hsome : leastName? cycle.dropLast ≠ none := by rwa [Ne, leastName?_eq_none_iff]
    obtain ⟨least, hleast⟩ := Option.ne_none_iff_exists'.mp hsome
    exact ⟨hrotated, least, head?_cycleIdentity hleast,
      ((leastName?_eq_some_iff _ _).mp hleast).2⟩
  · rintro ⟨hnames, least, hhead, hle⟩
    have hmem : least ∈ cycle.dropLast := hnames.mem_iff.mp (List.mem_of_mem_head? hhead)
    have hleast := (leastName?_eq_some_iff _ _).mpr ⟨hmem, hle⟩
    -- No name stands twice, so a rotation is known by its first name.
    apply eq_of_isRotated_of_head? (hrotated.trans hnames.symm) (hrotated.nodup_iff.mpr hnodup)
    rw [head?_cycleIdentity hleast, Option.mem_def.mp hhead]

/-- Of a closed cycle that passes no node twice, the identity is the rotation that begins with the
least name, and no other; the identity of another cycle is the same exactly when that cycle is a
rotation of this one. -/
theorem cycleIdentity_canonical {first : String} {rest : List String}
    (hnodup : (first :: rest).Nodup) :
    (∀ names, cycleIdentity (first :: rest ++ [first]) = names ↔
      names.IsRotated (first :: rest) ∧
        ∃ least ∈ names.head?, ∀ name ∈ first :: rest, least ≤ name) ∧
    ∀ other others,
      cycleIdentity (first :: rest ++ [first]) = cycleIdentity (other :: others ++ [other]) ↔
        (first :: rest).IsRotated (other :: others) := by
  have hnodes : ∀ (name : String) names, (name :: names ++ [name]).dropLast = name :: names :=
    fun name names => List.dropLast_concat
  have hne : (first :: rest ++ [first]).dropLast ≠ [] := by rw [hnodes]; simp
  rw [← hnodes first rest] at hnodup
  constructor
  · intro names
    have heq := @cycleIdentity_eq_iff_head? (first :: rest ++ [first]) names hnodup hne
    rwa [hnodes] at heq
  · intro other others
    rw [cycleIdentity_eq_iff hnodup, hnodes, hnodes]

/-- The cycle is met at each of its nodes, and has one identity. -/
theorem cycleIdentity_canonical_threeNodes :
    ["IC", "IA", "IB"].Nodup ∧
    cycleIdentity ["IC", "IA", "IB", "IC"] = ["IA", "IB", "IC"] ∧
    cycleIdentity ["IC", "IA", "IB", "IC"] = cycleIdentity ["IB", "IC", "IA", "IB"] ∧
    cycleIdentity ["IC", "IA", "IB", "IC"] ≠ cycleIdentity ["IA", "IC", "IB", "IA"] := by
  have hnodup : ["IC", "IA", "IB"].Nodup := by decide
  obtain ⟨hleast, hsame⟩ := cycleIdentity_canonical hnodup
  refine ⟨hnodup, (hleast _).mpr ⟨⟨2, by decide⟩, "IA", rfl, by decide⟩,
    (hsame "IB" ["IC", "IA"]).mpr ⟨2, by decide⟩, fun hidentity => ?_⟩
  have hrotated := (hsame "IA" ["IC", "IB"]).mp hidentity
  exact absurd hrotated (by decide)

/-! ## Steps -/

theorem pair_isInfix_iff (a b : String) (names : List String) :
    [a, b] <:+: names ↔ (a, b) ∈ names.zip names.tail := by
  induction names with
  | nil => simp
  | cons name rest ih =>
    rw [List.infix_cons_iff, ih]
    cases rest with
    | nil => simp
    | cons next rest => simp [List.cons_prefix_cons]

/-- The steps of a closed cycle are those from its nodes to the nodes rotated by one. -/
theorem pair_isInfix_closed_iff (a b first : String) (rest : List String) :
    [a, b] <:+: first :: rest ++ [first] ↔
      (a, b) ∈ (first :: rest).zip ((first :: rest).rotate 1) := by
  have hlength : (first :: rest).length = (rest ++ [first]).length := by simp
  have hrotate : (first :: rest).rotate 1 = rest ++ [first] := by simp
  have hzip : (first :: rest ++ [first]).zip (rest ++ [first]) =
      (first :: rest).zip (rest ++ [first]) := by
    have happend := @List.zip_append _ _ _ [first] _ [] hlength
    rw [List.append_nil, List.zip_nil_right, List.append_nil] at happend
    exact happend
  rw [pair_isInfix_iff, hrotate, ← hzip]
  rfl

theorem pair_isInfix_of_isRotated {a b first other : String} {rest others : List String}
    (h : (first :: rest).IsRotated (other :: others))
    (hstep : [a, b] <:+: first :: rest ++ [first]) :
    [a, b] <:+: other :: others ++ [other] := by
  rw [pair_isInfix_closed_iff] at hstep ⊢
  obtain ⟨n, hn⟩ := h
  rw [← hn, List.rotate_rotate, Nat.add_comm n 1, ← List.rotate_rotate, List.zip,
    ← List.zipWith_rotate_distrib _ _ _ _ (List.length_rotate _ _).symm, List.mem_rotate]
  exact hstep

theorem exists_step_of_mem {key name : String} {rest : List String}
    (h : name ∈ key :: rest ++ [key]) : ∃ next, [name, next] <:+: key :: rest ++ [key] := by
  have hmem : name ∈ key :: rest := by simpa [or_comm] using h
  obtain ⟨before, after, hsplit⟩ := List.append_of_mem hmem
  rw [hsplit]
  cases after with
  | nil => exact ⟨key, before, [], by simp⟩
  | cons next after => exact ⟨next, before, after ++ [key], by simp⟩

/-- On a closed chain every step leads back to its source. -/
theorem reflTransGen_of_step {edge : String → String → Prop} {key name next : String}
    {rest : List String} (hchain : (key :: rest ++ [key]).IsChain edge)
    (hstep : [name, next] <:+: key :: rest ++ [key]) :
    edge name next ∧ Relation.ReflTransGen edge next name := by
  obtain ⟨before, after, hsplit⟩ := hstep
  rw [List.append_assoc, List.cons_append, List.cons_append, List.nil_append] at hsplit
  have hhead : (before ++ name :: next :: after).head? = some key := by rw [hsplit]; rfl
  have hlast : (before ++ name :: next :: after).getLast? = some key := by
    rw [hsplit, List.getLast?_concat]
  rw [← hsplit] at hchain
  obtain ⟨hbefore, hedge, hafter⟩ := List.isChain_append_cons_cons.mp hchain
  refine ⟨hedge, ?_⟩
  have hto : Relation.ReflTransGen edge next key := by
    apply List.relationReflTransGen_of_exists_isChain_cons after hafter
    apply Option.some.inj
    rw [← List.getLast?_eq_some_getLast, ← hlast, List.getLast?_append_cons,
      List.getLast?_cons_cons]
  have hfrom : Relation.ReflTransGen edge key name := by
    have hway := List.relationReflTransGen_of_exists_isChain _ hbefore (by simp)
    rw [List.getLast_concat] at hway
    have hkey : (before ++ [name]).head (by simp) = key := by
      apply Option.some.inj
      rw [← List.head?_eq_some_head, ← hhead, List.head?_append, List.head?_append]
      rfl
    rw [hkey] at hway
    exact hway
  exact hto.trans hfrom

end Wiring.Graph
