import Wiring.Proofs.Graph.Cycle
import Wiring.Proofs.Graph.Diagnostics
import Wiring.Proofs.Graph.ReturnPath
import Wiring.Proofs.Graph.Soundness

/-! The cycles that a validation reports, as lists of names before they are joined into a text.
Validation goes through all parameters in order and leaves out a cycle whose identity was reported
before; what it reports is therefore the first cycle found of each identity. -/
namespace Wiring.Graph

/-- A cycle with the record whose parameter closes it. -/
structure Citation where
  reporter : RegistrationRecord
  path : ReturnPath
  deriving DecidableEq, Repr

namespace Citation

def diagnostic (c : Citation) : Diagnostic := c.path.diagnostic c.reporter

/-- The interfaces on the cycle, each of them once. -/
def nodes (c : Citation) : List String := c.path.cycle.dropLast

def identity (c : Citation) : List String := cycleIdentity c.path.cycle

end Citation

/-- Every parameter with its record, in the order in which validation meets them. -/
def parameters (records : List RegistrationRecord) : List (RegistrationRecord × Dependency) :=
  records.flatMap fun r => r.constructorDependencies.map (r, ·)

def citation? (records : List RegistrationRecord) (detection : CycleDetection)
    (parameter : RegistrationRecord × Dependency) : Option Citation :=
  (returnPath? records detection parameter.1 parameter.2).map (Citation.mk parameter.1)

/-- The cycles through the parameters of some of the records, reported or not. -/
def found (records : List RegistrationRecord) (detection : CycleDetection)
    (rest : List RegistrationRecord) : List Citation :=
  (parameters rest).filterMap (citation? records detection)

/-- Leaves out the items whose key is a known one or that of an earlier item. -/
def firstsBy {Item Key : Type} [DecidableEq Key] (key : Item → Key) :
    List Key → List Item → List Item
  | _, [] => []
  | known, item :: rest =>
    if key item ∈ known then firstsBy key known rest
    else item :: firstsBy key (key item :: known) rest

/-- The cycles that validation reports. -/
def cited (records : List RegistrationRecord) (detection : CycleDetection) : List Citation :=
  firstsBy Citation.identity [] (found records detection records)

/-- The reports of cycles in a run. -/
def cycleReports (v : Validated) : List Diagnostic :=
  v.diagnostics.filter fun d => d.kind = .circularDependency

/-! ## The reports of a run -/

section Run

variable {records : List RegistrationRecord} {detection : CycleDetection}

theorem found_cons (r : RegistrationRecord) (rest : List RegistrationRecord) :
    found records detection (r :: rest) =
      (returnPaths records detection r).map (Citation.mk r) ++ found records detection rest := by
  unfold found parameters returnPaths
  rw [List.flatMap_cons, List.filterMap_append, List.filterMap_map, List.map_filterMap]
  rfl

theorem firstsBy_map_append (r : RegistrationRecord) (paths : List ReturnPath)
    (reported : List (List String)) (more : List Citation) :
    firstsBy Citation.identity reported (paths.map (Citation.mk r) ++ more) =
      (freshPaths reported paths).1.map (Citation.mk r) ++
        firstsBy Citation.identity (freshPaths reported paths).2 more := by
  induction paths generalizing reported with
  | nil => rfl
  | cons p rest ih =>
    have hidentity : (Citation.mk r p).identity = cycleIdentity p.cycle := rfl
    rw [List.map_cons, List.cons_append, firstsBy, freshPaths, hidentity]
    by_cases hknown : cycleIdentity p.cycle ∈ reported
    · rw [if_pos hknown, if_pos hknown]
      exact ih reported
    · rw [if_neg hknown, if_neg hknown, ih]
      rfl

theorem filter_recordDiagnostics (reported : List (List String)) (rest : List RegistrationRecord) :
    (recordDiagnostics records detection reported rest).filter
        (fun d => d.kind = .circularDependency) =
      (firstsBy Citation.identity reported (found records detection rest)).map
        Citation.diagnostic := by
  induction rest generalizing reported with
  | nil => rfl
  | cons r rest ih =>
    rw [found_cons, firstsBy_map_append, recordDiagnostics]
    cases hf : freshPaths reported (returnPaths records detection r) with
    | mk fresh after =>
      have hlazy : ((lazyMismatches records r).map (lazyDiagnostic r)).filter
          (fun d => d.kind = .circularDependency) = [] :=
        filter_kind_eq_nil fun d hd => by simp [kind_of_mem_map_lazyDiagnostic hd]
      rw [List.filter_append, List.filter_append,
        filter_kind_eq_self fun _ => kind_of_mem_map_diagnostic, hlazy, ih, List.append_nil,
        List.map_append, List.map_map]
      rfl

/-- The reports of cycles in a run are those of the cited cycles, in their order. -/
theorem cycleReports_validate (records : List RegistrationRecord) (detection : CycleDetection) :
    cycleReports (validate detection records) =
      (cited records detection).map Citation.diagnostic := by
  unfold cycleReports validate cited
  rw [List.filter_append, filter_kind_repetitions (by decide), List.nil_append,
    filter_recordDiagnostics]

end Run

/-! ## What is left out -/

section FirstsBy

variable {Item Key : Type} [DecidableEq Key] {key : Item → Key} {known : List Key}
  {items : List Item} {item : Item}

theorem first_of_mem_firstsBy (h : item ∈ firstsBy key known items) :
    key item ∉ known ∧ ∃ before after, items = before ++ item :: after ∧
      ∀ other ∈ before, key other ≠ key item := by
  induction items generalizing known with
  | nil => contradiction
  | cons first rest ih =>
    unfold firstsBy at h
    split at h
    · rename_i hknown
      obtain ⟨hnew, before, after, rfl, hbefore⟩ := ih h
      refine ⟨hnew, first :: before, after, rfl, List.forall_mem_cons.mpr ⟨?_, hbefore⟩⟩
      exact fun heq => hnew (heq ▸ hknown)
    · rename_i hunknown
      rcases List.mem_cons.mp h with rfl | hrest
      · exact ⟨hunknown, [], rest, rfl, by simp⟩
      · obtain ⟨hnew, before, after, rfl, hbefore⟩ := ih hrest
        obtain ⟨hne, hnew⟩ := not_or.mp (List.mem_cons.not.mp hnew)
        exact ⟨hnew, first :: before, after, rfl, List.forall_mem_cons.mpr ⟨Ne.symm hne, hbefore⟩⟩

/-- What is left out has the key of something that is not. -/
theorem exists_mem_firstsBy (h : item ∈ items) :
    key item ∈ known ∨ ∃ other ∈ firstsBy key known items, key other = key item := by
  induction items generalizing known with
  | nil => contradiction
  | cons first rest ih =>
    unfold firstsBy
    split
    · rename_i hknown
      rcases List.mem_cons.mp h with rfl | hrest
      · exact Or.inl hknown
      · exact ih hrest
    · rcases List.mem_cons.mp h with rfl | hrest
      · exact Or.inr ⟨item, List.mem_cons_self, rfl⟩
      · rcases @ih (key first :: known) hrest with hmem | ⟨other, hother, heq⟩
        · rcases List.mem_cons.mp hmem with heq | hknown
          · exact Or.inr ⟨first, List.mem_cons_self, heq.symm⟩
          · exact Or.inl hknown
        · exact Or.inr ⟨other, List.mem_cons_of_mem first hother, heq⟩

theorem pairwise_firstsBy :
    (firstsBy key known items).Pairwise fun one other => key one ≠ key other := by
  induction items generalizing known with
  | nil => exact .nil
  | cons first rest ih =>
    unfold firstsBy
    split
    · exact ih
    · refine List.pairwise_cons.mpr ⟨fun other hother heq => ?_, ih⟩
      exact (first_of_mem_firstsBy hother).1 (heq ▸ List.mem_cons_self)

end FirstsBy

/-! ## Cited cycles -/

variable {records : List RegistrationRecord} {detection : CycleDetection}

/-- The cycle goes through a parameter of its record that needs `name`. -/
structure Closes (records : List RegistrationRecord) (detection : CycleDetection) (c : Citation)
    (name : String) : Prop where
  mem : c.path.dependency ∈ c.reporter.constructorDependencies
  plain : c.path.dependency.kind.plainName? = some name
  cycle : cycleThrough records detection c.reporter.key name = some c.path.cycle

theorem Closes.needs {c : Citation} {name : String} (h : Closes records detection c name) :
    c.reporter.Needs name :=
  (mem_plainNames_iff _ _).mp (List.mem_filterMap.mpr ⟨_, h.mem, h.plain⟩)

theorem Closes.leadsTo {c : Citation} {name : String} (h : Closes records detection c name) :
    LeadsTo records detection name c.reporter.key :=
  leadsTo_of_cycleThrough h.cycle

theorem citation?_eq_some_iff {r : RegistrationRecord} {d : Dependency} {c : Citation}
    (hd : d ∈ r.constructorDependencies) :
    citation? records detection (r, d) = some c ↔
      c.reporter = r ∧ c.path.dependency = d ∧ ∃ name, Closes records detection c name := by
  unfold citation?
  rw [Option.map_eq_some_iff]
  constructor
  · rintro ⟨p, hp, rfl⟩
    obtain ⟨rfl, name, hplain, hcycle⟩ := returnPath?_eq_some_iff.mp hp
    exact ⟨rfl, rfl, name, hd, hplain, hcycle⟩
  · rintro ⟨rfl, rfl, name, hcloses⟩
    exact ⟨c.path, returnPath?_eq_some_iff.mpr ⟨rfl, name, hcloses.plain, hcloses.cycle⟩, rfl⟩

theorem mem_parameters_iff {rest : List RegistrationRecord} {r : RegistrationRecord}
    {d : Dependency} :
    (r, d) ∈ parameters rest ↔ r ∈ rest ∧ d ∈ r.constructorDependencies := by
  unfold parameters
  simp [List.mem_flatMap]

theorem mem_found_iff {rest : List RegistrationRecord} {c : Citation} :
    c ∈ found records detection rest ↔
      c.reporter ∈ rest ∧ ∃ name, Closes records detection c name := by
  unfold found
  rw [List.mem_filterMap]
  constructor
  · rintro ⟨⟨r, d⟩, hmem, hc⟩
    obtain ⟨hr, hd⟩ := mem_parameters_iff.mp hmem
    obtain ⟨rfl, rfl, hcloses⟩ := (citation?_eq_some_iff hd).mp hc
    exact ⟨hr, hcloses⟩
  · rintro ⟨hr, name, hcloses⟩
    exact ⟨_, mem_parameters_iff.mpr ⟨hr, hcloses.mem⟩,
      (citation?_eq_some_iff hcloses.mem).mpr ⟨rfl, rfl, name, hcloses⟩⟩

theorem mem_found_of_mem_cited {c : Citation} (h : c ∈ cited records detection) :
    c ∈ found records detection records := by
  obtain ⟨_, before, after, heq, _⟩ := first_of_mem_firstsBy h
  simp [heq]

/-- A cycle found goes from the interface of its record back to it. -/
theorem exists_returnCycle_of_mem_found {c : Citation} (h : c ∈ found records detection records) :
    ∃ rest, c.path.cycle = c.reporter.key :: rest ++ [c.reporter.key] ∧
      c.nodes = c.reporter.key :: rest ∧ ReturnCycle records c.reporter.key rest := by
  obtain ⟨_, name, hcloses⟩ := mem_found_iff.mp h
  obtain ⟨rest, hcycle, hreturn⟩ := exists_returnCycle hcloses.cycle
  refine ⟨rest, hcycle, ?_, hreturn⟩
  rw [Citation.nodes, hcycle, List.dropLast_concat]

theorem nodup_nodes {c : Citation} (h : c ∈ found records detection records) : c.nodes.Nodup := by
  obtain ⟨rest, _, hnodes, hreturn⟩ := exists_returnCycle_of_mem_found h
  rw [hnodes]
  exact hreturn.nodup

/-- Every cycle found is a cited one, read from another of its nodes. -/
theorem exists_cited_isRotated {c : Citation} (h : c ∈ found records detection records) :
    ∃ q ∈ cited records detection, c.nodes.IsRotated q.nodes := by
  rcases @exists_mem_firstsBy _ _ _ Citation.identity [] _ _ h with hknown | ⟨q, hq, heq⟩
  · contradiction
  · exact ⟨q, hq, (cycleIdentity_eq_iff (nodup_nodes h)).mp heq.symm⟩

/-- A step of a cycle found is a step of a cited cycle. -/
theorem exists_cited_step {c : Citation} {a b : String} (h : c ∈ found records detection records)
    (hstep : [a, b] <:+: c.path.cycle) : ∃ q ∈ cited records detection, [a, b] <:+: q.path.cycle := by
  obtain ⟨q, hq, hrotated⟩ := exists_cited_isRotated h
  obtain ⟨rest, hcycle, hnodes, _⟩ := exists_returnCycle_of_mem_found h
  obtain ⟨rest', hcycle', hnodes', _⟩ :=
    exists_returnCycle_of_mem_found (mem_found_of_mem_cited hq)
  rw [hnodes, hnodes'] at hrotated
  rw [hcycle] at hstep
  refine ⟨q, hq, ?_⟩
  rw [hcycle']
  exact pair_isInfix_of_isRotated hrotated hstep

end Wiring.Graph
