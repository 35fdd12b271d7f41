import Wiring.Graph.Validation
import Wiring.Proofs.Graph.Registry
import Wiring.Proofs.Graph.SearchOrder

/-! The cycles that are closed through one parameter of a record. Such a cycle passes no interface
twice, its steps after the first are edges, and its first step is taken by the parameter itself.
The one exception is full detection on a parameter of the record's own interface: its cycle leaves
through the first parameter of the first registration that leads back. -/
namespace Wiring.Graph

variable {records : List RegistrationRecord} {detection : CycleDetection}

/-! ## Ways -/

/-- A way passes no interface between its ends twice, neither end again, and edges only. -/
structure SimpleWay (records : List RegistrationRecord) (source target : String)
    (between : List String) : Prop where
  nodup : (source :: between).Nodup
  target_notMem : target ∉ between
  chain : (source :: between ++ [target]).IsChain (Edge records)

theorem way?_pairwise_eq_some_iff {source target : String} {way : List String} :
    way? records .pairwise source target = some way ↔
      Edge records source target ∧ way = [source, target] := by
  change (if target ∈ successors records source then some [source, target] else none) =
    some way ↔ _
  rw [← mem_successors_iff]
  by_cases hmem : target ∈ successors records source <;> simp [hmem, eq_comm]

theorem exists_simpleWay {source target : String} {way : List String}
    (h : way? records detection source target = some way) :
    ∃ between, way = source :: between ++ [target] ∧ SimpleWay records source target between := by
  cases detection with
  | pairwise =>
    obtain ⟨hedge, rfl⟩ := way?_pairwise_eq_some_iff.mp h
    exact ⟨[], rfl, by simp, by simp, by simpa using hedge⟩
  | full =>
    obtain ⟨between, hway, hnodup, hnot, hunvisited, hchain⟩ :=
      (freshWay_of_search h).exists_between
    have hsource : source ∉ between := fun hmem => hunvisited source hmem (by simp)
    exact ⟨between, hway, List.nodup_cons.mpr ⟨hsource, hnodup⟩, hnot,
      hchain.imp fun name next => (mem_successors_iff records name next).mp⟩

/-! ## Cycles through a parameter -/

/-- The cycle that a record of interface `key` closes through its need of `name`. -/
def cycleThrough (records : List RegistrationRecord) (detection : CycleDetection)
    (key name : String) : Option (List String) :=
  (way? records detection name key).map (closeCycle key)

theorem isSome_cycleThrough_iff (key name : String) :
    (cycleThrough records detection key name).isSome = true ↔
      LeadsTo records detection name key := by
  rw [cycleThrough, Option.isSome_map, isSome_way?_iff]

theorem leadsTo_of_cycleThrough {key name : String} {cycle : List String}
    (h : cycleThrough records detection key name = some cycle) :
    LeadsTo records detection name key :=
  (isSome_cycleThrough_iff key name).mp (Option.isSome_of_mem h)

theorem exists_cycleThrough {key name : String} (h : LeadsTo records detection name key) :
    ∃ cycle, cycleThrough records detection key name = some cycle :=
  Option.isSome_iff_exists.mp ((isSome_cycleThrough_iff key name).mpr h)

theorem returnPath?_eq_some_iff {r : RegistrationRecord} {d : Dependency} {p : ReturnPath} :
    returnPath? records detection r d = some p ↔
      p.dependency = d ∧ ∃ name, d.kind.plainName? = some name ∧
        cycleThrough records detection r.key name = some p.cycle := by
  unfold returnPath? cycleThrough
  simp only [Option.bind_eq_some_iff, Option.map_eq_some_iff]
  constructor
  · rintro ⟨name, hname, way, hway, rfl⟩
    exact ⟨rfl, name, hname, way, hway, rfl⟩
  · rintro ⟨rfl, name, hname, way, hway, hcycle⟩
    exact ⟨name, hname, way, hway, by rw [hcycle]⟩

/-- From `key` over `rest` back to `key`, no interface twice, all steps but the first edges. -/
structure ReturnCycle (records : List RegistrationRecord) (key : String) (rest : List String) :
    Prop where
  nodup : (key :: rest).Nodup
  chain : (rest ++ [key]).IsChain (Edge records)

theorem closeCycle_self (key : String) (rest : List String) :
    closeCycle key (key :: rest) = key :: rest := by
  simp [closeCycle]

theorem closeCycle_of_ne {key name : String} (h : name ≠ key) (rest : List String) :
    closeCycle key (name :: rest) = key :: name :: rest := by
  simp [closeCycle, h]

theorem exists_returnCycle {key name : String} {cycle : List String}
    (h : cycleThrough records detection key name = some cycle) :
    ∃ rest, cycle = key :: rest ++ [key] ∧ ReturnCycle records key rest := by
  obtain ⟨way, hway, rfl⟩ := Option.map_eq_some_iff.mp h
  obtain ⟨between, rfl, hsimple⟩ := exists_simpleWay hway
  by_cases hself : name = key
  · subst hself
    exact ⟨between, closeCycle_self _ _, hsimple.nodup, List.IsChain.of_cons hsimple.chain⟩
  · refine ⟨name :: between, closeCycle_of_ne hself _, ?_, hsimple.chain⟩
    refine List.nodup_cons.mpr ⟨?_, hsimple.nodup⟩
    exact List.not_mem_cons_of_ne_of_not_mem (Ne.symm hself) hsimple.target_notMem

theorem firstStep_of_ne {key name : String} {cycle : List String}
    (h : cycleThrough records detection key name = some cycle) (hne : name ≠ key) :
    [key, name] <+: cycle := by
  obtain ⟨way, hway, rfl⟩ := Option.map_eq_some_iff.mp h
  obtain ⟨between, rfl, _⟩ := exists_simpleWay hway
  exact ⟨between ++ [key], (closeCycle_of_ne hne _).symm⟩

theorem cycleThrough_pairwise {key name : String} {cycle : List String}
    (h : cycleThrough records .pairwise key name = some cycle) :
    Edge records name key ∧ cycle = closeCycle key [name, key] := by
  obtain ⟨way, hway, rfl⟩ := Option.map_eq_some_iff.mp h
  obtain ⟨hedge, rfl⟩ := way?_pairwise_eq_some_iff.mp hway
  exact ⟨hedge, rfl⟩

theorem firstStep_of_pairwise {key name : String} {cycle : List String}
    (h : cycleThrough records .pairwise key name = some cycle) : [key, name] <+: cycle := by
  by_cases hself : name = key
  · rw [(cycleThrough_pairwise h).2, hself, closeCycle_self]
  · exact firstStep_of_ne h hself

/-! ## A parameter of the record's own interface -/

/-- The first parameter of the first registration of `key` that leads back to `key` asks for
`name`. -/
def FirstReturn (records : List RegistrationRecord) (key name : String) : Prop :=
  ∃ first before d after, IsFirst records key first ∧
    first.constructorDependencies = before ++ d :: after ∧ d.kind.plainName? = some name ∧
    LeadsTo records .full name key ∧
    ∀ e ∈ before, ∀ earlier, e.kind.plainName? = some earlier →
      ¬ LeadsTo records .full earlier key

theorem reaches_successors_iff (source target : String) :
    Reaches (successors records) source target ↔ LeadsTo records .full source target := by
  unfold Reaches LeadsTo
  simp only [mem_successors_iff]

theorem isSome_returnPath?_iff {r : RegistrationRecord} {d : Dependency} :
    (returnPath? records detection r d).isSome = true ↔
      ∃ name, d.kind.plainName? = some name ∧ LeadsTo records detection name r.key := by
  unfold returnPath?
  cases d.kind.plainName? with
  | none => simp
  | some name =>
    rw [Option.bind_some, Option.isSome_map, isSome_way?_iff]
    simp

theorem exists_firstReturn {key : String} (h : LeadsTo records .full key key) :
    ∃ name, FirstReturn records key name := by
  obtain ⟨next, ⟨_, first, hfirst, d, hd, type, hkind, hname⟩, hway⟩ :=
    Relation.TransGen.head'_iff.mp h
  have hkey := hfirst.key_eq
  have hnext : LeadsTo records .full next first.key := by
    rw [hkey]
    rcases Relation.reflTransGen_iff_eq_or_transGen.mp hway with rfl | hreach
    · exact h
    · exact hreach
  have hreturns : ∃ e ∈ first.constructorDependencies,
      (returnPath? records .full first e).isSome = true := by
    refine ⟨d, hd, isSome_returnPath?_iff.mpr ⟨next, ?_, hnext⟩⟩
    exact (DependencyKind.plainName?_eq_some_iff _ _).mpr ⟨type, hkind, hname⟩
  obtain ⟨e, he⟩ := Option.isSome_iff_exists.mp (List.find?_isSome.mpr hreturns)
  obtain ⟨hsome, before, after, hsplit, hbefore⟩ := List.find?_eq_some_iff_append.mp he
  obtain ⟨name, hplain, hleads⟩ := isSome_returnPath?_iff.mp hsome
  refine ⟨name, first, before, e, after, hfirst, hsplit, hplain, hkey ▸ hleads, ?_⟩
  intro other hmem earlier hearlier hback
  have hnot := hbefore other hmem
  rw [isSome_returnPath?_iff.mpr ⟨earlier, hearlier, hkey.symm ▸ hback⟩] at hnot
  contradiction

theorem FirstReturn.edge {key name : String} (h : FirstReturn records key name) :
    Edge records key name := by
  obtain ⟨first, before, d, after, hfirst, hsplit, hplain, hleads, _⟩ := h
  obtain ⟨type, hkind, hname⟩ := (DependencyKind.plainName?_eq_some_iff _ _).mp hplain
  exact ⟨hleads.registered, first, hfirst, d, by simp [hsplit], type, hkind, hname⟩

/-- Only the first edge that leads back counts, in the order of the parameters. -/
theorem FirstReturn.successors_eq {key name : String} (h : FirstReturn records key name) :
    ∃ before after, successors records key = before ++ name :: after ∧
      ∀ earlier ∈ before, ¬ LeadsTo records .full earlier key := by
  obtain ⟨first, before, d, after, hfirst, hsplit, hplain, hleads, hbefore⟩ := h
  have hregistered := (isRegistered_iff records name).mpr hleads.registered
  have hlookup := (lookup_eq_some_iff records key first).mpr hfirst
  refine ⟨(before.filterMap fun e => e.kind.plainName?).filter (isRegistered records),
    (after.filterMap fun e => e.kind.plainName?).filter (isRegistered records), ?_, ?_⟩
  · simp [successors, hlookup, plainNames, hsplit, hplain, hregistered]
  · intro earlier hmem
    obtain ⟨e, he, hearlier⟩ := List.mem_filterMap.mp (List.mem_of_mem_filter hmem)
    exact hbefore e he earlier hearlier

/-- A cycle through a parameter of the own interface is the one through the first parameter of the
first registration that leads back. -/
theorem cycleThrough_firstReturn {key name : String} (h : FirstReturn records key name) :
    ∃ cycle, cycleThrough records .full key key = some cycle ∧
      cycleThrough records .full key name = some cycle ∧ [key, name] <+: cycle := by
  obtain ⟨before, after, hsuccessors, hbefore⟩ := h.successors_eq
  have hleads : LeadsTo records .full name key := by
    obtain ⟨_, _, _, _, _, _, _, hleads, _⟩ := h
    exact hleads
  have hself : LeadsTo records .full key key := .head h.edge hleads
  have hdead : ∀ node ∈ before, node ≠ key ∧ ¬ Reaches (successors records) node key := by
    intro node hmem
    rw [reaches_successors_iff]
    refine ⟨?_, hbefore node hmem⟩
    rintro rfl
    exact hbefore node hmem hself
  have hway : way? records .full key key =
      if name = key then some [key, key]
      else (way? records .full name key).map (key :: ·) :=
    search_self_eq (successors_subset records) hsuccessors hdead
      ((reaches_successors_iff _ _).mpr hleads) (unvisited_keys_lt records _)
      (unvisited_keys_lt records _)
  obtain ⟨cycle, hcycle⟩ := exists_cycleThrough hleads
  by_cases heq : name = key
  · subst heq
    refine ⟨cycle, hcycle, hcycle, ?_⟩
    rw [if_pos rfl] at hway
    rw [cycleThrough, hway] at hcycle
    cases hcycle
    rw [closeCycle_self]
  · refine ⟨cycle, ?_, hcycle, firstStep_of_ne hcycle heq⟩
    obtain ⟨way, hfound, rfl⟩ := Option.map_eq_some_iff.mp hcycle
    obtain ⟨between, rfl, _⟩ := exists_simpleWay hfound
    rw [if_neg heq, hfound] at hway
    rw [cycleThrough, hway]
    exact congrArg some ((closeCycle_self key _).trans (closeCycle_of_ne heq _).symm)

/-- What the first step of a cycle tells of the parameter that it goes through. -/
theorem firstStep_or_firstReturn {key name : String} {cycle : List String}
    (h : cycleThrough records detection key name = some cycle) :
    [key, name] <+: cycle ∨ detection = .full ∧ name = key ∧ ∃ first, first ≠ key ∧
      FirstReturn records key first ∧ cycleThrough records .full key first = some cycle := by
  by_cases hself : name = key
  · cases detection with
    | pairwise => exact Or.inl (firstStep_of_pairwise h)
    | full =>
      subst hself
      obtain ⟨first, hfirst⟩ := exists_firstReturn (leadsTo_of_cycleThrough h)
      obtain ⟨cycle', hcycle, hthrough, hstep⟩ := cycleThrough_firstReturn hfirst
      obtain rfl : cycle' = cycle := Option.some.inj (hcycle.symm.trans h)
      by_cases heq : first = name
      · exact Or.inl (heq ▸ hstep)
      · exact Or.inr ⟨rfl, rfl, first, heq, hfirst, hthrough⟩
  · exact Or.inl (firstStep_of_ne h hself)

end Wiring.Graph
