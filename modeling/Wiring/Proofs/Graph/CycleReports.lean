import Wiring.Proofs.Graph.Citation
import Wiring.Proofs.Graph.Revalidation

/-! Each cycle is reported once, and its report is right. A record with a way back lies on a
reported cycle, although the way found from it may be left out as a repetition. A report follows
the parameter that it is placed at: the one kind of cycle that leaves its record through another
parameter has always been found earlier, through that parameter. -/
namespace Wiring.Graph

variable {records : List RegistrationRecord} {detection : CycleDetection}

/-! ## Once for each cycle -/

/-- A parameter of the record leads back to the record's own interface. -/
def Cyclic (records : List RegistrationRecord) (detection : CycleDetection)
    (r : RegistrationRecord) : Prop :=
  ∃ name, r.Needs name ∧ LeadsTo records detection name r.key

theorem exists_found_of_needs {r : RegistrationRecord} {name : String} (hr : r ∈ records)
    (hneeds : r.Needs name) (hleads : LeadsTo records detection name r.key) :
    ∃ c ∈ found records detection records, c.reporter = r ∧
      cycleThrough records detection r.key name = some c.path.cycle := by
  obtain ⟨d, hd, hplain⟩ := hneeds
  rw [← DependencyKind.plainName?_eq_some_iff] at hplain
  obtain ⟨cycle, hcycle⟩ := exists_cycleThrough hleads
  exact ⟨⟨r, d, cycle⟩, mem_found_iff.mpr ⟨hr, name, hd, hplain, hcycle⟩, rfl, hcycle⟩

theorem Cyclic.not_mem_validate {r : RegistrationRecord} (h : Cyclic records detection r) :
    r ∉ (validate detection records).records := by
  obtain ⟨name, hneeds, hleads⟩ := h
  intro hmem
  exact ((mem_validate_iff records detection r).mp hmem).2.acyclic name hneeds hleads

/-- Every record dropped for a way back to itself is on a cited cycle, and no two cited cycles are
rotations of each other. -/
theorem cycles_cited_once (records : List RegistrationRecord) (detection : CycleDetection) :
    cycleReports (validate detection records) =
      (cited records detection).map Citation.diagnostic ∧
    (∀ r ∈ records, Cyclic records detection r →
      r ∉ (validate detection records).records ∧
        ∃ c ∈ cited records detection, r.key ∈ c.path.cycle) ∧
    (cited records detection).Pairwise fun c q => ¬ c.nodes.IsRotated q.nodes := by
  refine ⟨cycleReports_validate records detection, fun r hr hcyclic => ?_, ?_⟩
  · refine ⟨hcyclic.not_mem_validate, ?_⟩
    obtain ⟨name, hneeds, hleads⟩ := hcyclic
    obtain ⟨c, hc, rfl, _⟩ := exists_found_of_needs hr hneeds hleads
    obtain ⟨q, hq, hrotated⟩ := exists_cited_isRotated hc
    obtain ⟨rest, _, hnodes, _⟩ := exists_returnCycle_of_mem_found hc
    refine ⟨q, hq, List.mem_of_mem_dropLast (hrotated.mem_iff.mp ?_)⟩
    simp [hnodes]
  · refine pairwise_firstsBy.imp_of_mem fun hc _ hne hrotated => hne ?_
    exact (cycleIdentity_eq_iff (nodup_nodes (mem_found_of_mem_cited hc))).mpr hrotated

/-- Two cycles that meet in one interface; the last record only repeats the second. -/
def touchingCycles : List RegistrationRecord :=
  [sampleRecord "IA" "A" .transient [("b", .plain ⟨0, "IB"⟩)],
   sampleRecord "IB" "B" .transient [("a", .plain ⟨0, "IA"⟩), ("c", .plain ⟨0, "IC"⟩)],
   sampleRecord "IC" "C" .transient [("b", .plain ⟨0, "IB"⟩)]]

theorem cycles_cited_once_touchingCycles :
    ∃ r ∈ touchingCycles, Cyclic touchingCycles .full r ∧
      (r ∉ (validate .full touchingCycles).records ∧
        ∃ c ∈ cited touchingCycles .full, r.key ∈ c.path.cycle) ∧
      ∀ c ∈ cited touchingCycles .full, c.reporter ≠ r := by
  have hmem : sampleRecord "IC" "C" .transient [("b", .plain ⟨0, "IB"⟩)] ∈ touchingCycles := by
    decide
  have hcyclic : Cyclic touchingCycles .full
      (sampleRecord "IC" "C" .transient [("b", .plain ⟨0, "IB"⟩)]) := by
    refine ⟨"IB", (mem_plainNames_iff _ _).mp (by decide), ?_⟩
    exact (isSome_way?_iff _ _ _ _).mp (by decide)
  exact ⟨_, hmem, hcyclic, (cycles_cited_once touchingCycles .full).2.1 _ hmem hcyclic, by decide⟩

/-! ## Through the parameter of the report -/

/-- Where a parameter stands among all: after those of earlier records and earlier ones of its
own record. -/
theorem parameters_eq_append_cons {rest : List RegistrationRecord} {r : RegistrationRecord}
    {d : Dependency} {earlier later : List (RegistrationRecord × Dependency)}
    (h : parameters rest = earlier ++ (r, d) :: later) :
    ∃ before after own others, rest = before ++ r :: after ∧
      r.constructorDependencies = own ++ d :: others ∧
      earlier = parameters before ++ own.map (r, ·) := by
  induction rest generalizing earlier with
  | nil => simp [parameters] at h
  | cons s rest ih =>
    have hcons : parameters (s :: rest) =
        s.constructorDependencies.map (s, ·) ++ parameters rest := List.flatMap_cons
    rw [hcons] at h
    -- the parameter is one of the later records, or one of `s` itself
    have hlater : ∀ between, parameters rest = between ++ (r, d) :: later →
        earlier = s.constructorDependencies.map (s, ·) ++ between →
        ∃ before after own others, s :: rest = before ++ r :: after ∧
          r.constructorDependencies = own ++ d :: others ∧
          earlier = parameters before ++ own.map (r, ·) := by
      rintro between hrest rfl
      obtain ⟨before, after, own, others, rfl, hown, rfl⟩ := ih hrest
      exact ⟨s :: before, after, own, others, rfl, hown, (List.append_assoc _ _ _).symm⟩
    rcases List.append_eq_append_iff.mp h with ⟨between, hearlier, hrest⟩ | ⟨between, hs, hrest⟩
    · exact hlater between hrest hearlier
    · cases between with
      | nil => exact hlater [] hrest.symm (by simpa using hs.symm)
      | cons parameter between =>
        obtain ⟨own, others, hown, rfl, hothers⟩ := List.map_eq_append_iff.mp hs
        obtain ⟨e, others, rfl, hparameter, _⟩ := List.map_eq_cons_iff.mp hothers
        cases (List.cons.inj hrest).1.trans hparameter.symm
        exact ⟨[], rest, own, others, rfl, hown, rfl⟩

/-- The parameters met before that of a cited cycle close only cycles of other identities. -/
theorem exists_parameter_of_mem_cited {c : Citation} (h : c ∈ cited records detection) :
    ∃ before after own others, records = before ++ c.reporter :: after ∧
      c.reporter.constructorDependencies = own ++ c.path.dependency :: others ∧
      ∀ q name, Closes records detection q name →
        (q.reporter, q.path.dependency) ∈ parameters before ++ own.map (c.reporter, ·) →
        q.identity ≠ c.identity := by
  obtain ⟨_, before, after, hfound, hbefore⟩ := first_of_mem_firstsBy h
  obtain ⟨earlier, rest, hparameters, rfl, hrest⟩ := List.filterMap_eq_append_iff.mp hfound
  obtain ⟨between, ⟨r, d⟩, later, rfl, hbetween, hc, _⟩ := List.filterMap_eq_cons_iff.mp hrest
  have hmem := mem_parameters_iff.mp (hparameters ▸ by simp : (r, d) ∈ parameters records)
  obtain ⟨rfl, rfl, _⟩ := (citation?_eq_some_iff hmem.2).mp hc
  rw [← List.append_assoc] at hparameters
  obtain ⟨first, second, own, others, hrecords, hown, heq⟩ := parameters_eq_append_cons hparameters
  refine ⟨first, second, own, others, hrecords, hown, fun q name hcloses hq => ?_⟩
  have hcitation := (citation?_eq_some_iff hcloses.mem).mpr ⟨rfl, rfl, name, hcloses⟩
  rw [← heq] at hq
  rcases List.mem_append.mp hq with hearlier | hnone
  · exact hbefore q (List.mem_filterMap.mpr ⟨_, hearlier, hcitation⟩)
  · rw [hbetween _ hnone] at hcitation
    contradiction

theorem mem_of_append_cons_eq {α : Type} {a b : α} {own others before after : List α}
    (h : own ++ a :: others = before ++ b :: after) (hnot : a ∉ before) (hne : a ≠ b) :
    b ∈ own := by
  rcases List.append_eq_append_iff.mp h with ⟨between, rfl, hrest⟩ | ⟨between, rfl, hrest⟩
  · cases between with
    | nil => exact absurd (List.cons.inj hrest).1 hne
    | cons c between =>
      rw [(List.cons.inj hrest).1] at hnot
      exact absurd (by simp) hnot
  · cases between with
    | nil => exact absurd (List.cons.inj hrest).1.symm hne
    | cons c between =>
      rw [(List.cons.inj hrest).1]
      simp

/-- The first parameter that leads back to an interface is met before every parameter of the
interface that asks for the interface itself. -/
theorem FirstReturn.exists_met_before {before after : List RegistrationRecord}
    {r : RegistrationRecord} {d : Dependency} {own others : List Dependency} {name : String}
    (hreturn : FirstReturn records r.key name) (hrecords : records = before ++ r :: after)
    (hown : r.constructorDependencies = own ++ d :: others)
    (hplain : d.kind.plainName? = some r.key) (hself : LeadsTo records .full r.key r.key)
    (hne : name ≠ r.key) :
    ∃ first e, first.key = r.key ∧ e ∈ first.constructorDependencies ∧
      e.kind.plainName? = some name ∧ (first, e) ∈ parameters before ++ own.map (r, ·) := by
  obtain ⟨first, pre, e, post, hfirst, hsplit, he, _, hpre⟩ := hreturn
  refine ⟨first, e, hfirst.key_eq, by simp [hsplit], he, ?_⟩
  by_cases hregistered : Registered before r.key
  · obtain ⟨s, hs⟩ := (exists_isFirst_iff before _).mpr hregistered
    have hsfirst := hs.append (r :: after)
    rw [← hrecords] at hsfirst
    rw [hfirst.unique hsfirst] at hsplit ⊢
    exact List.mem_append_left _ (mem_parameters_iff.mpr ⟨hs.mem, by simp [hsplit]⟩)
  -- otherwise the first registration is `r` itself, and its own order of parameters decides
  · have hr : IsFirst records r.key r :=
      ⟨before, after, hrecords, rfl, fun s hs hkey => hregistered ⟨s, hs, hkey⟩⟩
    rw [hfirst.unique hr] at hsplit ⊢
    rw [hown] at hsplit
    have hmem : e ∈ own := by
      apply mem_of_append_cons_eq hsplit
      · exact fun hmem => hpre d hmem _ hplain hself
      · intro heq
        rw [heq, he] at hplain
        exact hne (Option.some.inj hplain)
    exact List.mem_append_right _ (List.mem_map.mpr ⟨e, hmem, rfl⟩)

/-- A cited cycle leaves its record through the parameter that it is reported at. -/
theorem closes_of_mem_cited {c : Citation} (h : c ∈ cited records detection) :
    ∃ name, Closes records detection c name ∧ [c.reporter.key, name] <+: c.path.cycle := by
  obtain ⟨_, name, hcloses⟩ := mem_found_iff.mp (mem_found_of_mem_cited h)
  refine ⟨name, hcloses, ?_⟩
  rcases firstStep_or_firstReturn hcloses.cycle with
    hstep | ⟨rfl, rfl, name, hne, hreturn, hcycle⟩
  · exact hstep
  · exfalso
    obtain ⟨before, after, own, others, hrecords, hown, hnew⟩ := exists_parameter_of_mem_cited h
    obtain ⟨first, e, hkey, hmem, he, hmet⟩ :=
      hreturn.exists_met_before hrecords hown hcloses.plain hcloses.leadsTo hne
    rw [← hkey] at hcycle
    exact hnew ⟨first, e, c.path.cycle⟩ name ⟨hmem, he, hcycle⟩ hmet rfl

theorem mem_cycleReports_iff {d : Diagnostic} :
    d ∈ cycleReports (validate detection records) ↔
      d ∈ (validate detection records).diagnostics ∧ d.kind = .circularDependency := by
  simp [cycleReports]

/-- Every report of a cycle comes from a parameter of a record: the cycle goes from the record's
interface on to the type of this parameter, then along edges back to the interface, and passes
nothing twice; the report names the record's concrete type and the place of the parameter. No way
or cycle that is looked into is empty. -/
theorem cycleReport_genuine (records : List RegistrationRecord) (detection : CycleDetection) :
    (∀ d ∈ (validate detection records).diagnostics, d.kind = .circularDependency →
      ∃ r ∈ records, ∃ parameter ∈ r.constructorDependencies, ∃ (type : TypeRef)
        (rest : List String), parameter.kind = .plain type ∧ (r.key :: rest).Nodup ∧
        (rest ++ [r.key]).head? = some type.name ∧ (rest ++ [r.key]).IsChain (Edge records) ∧
        d = ⟨.circularDependency r.concrete.name
              (String.intercalate " -> " (r.key :: rest ++ [r.key])),
            parameter.location.getD r.location⟩) ∧
    ∀ source target way, way? records detection source target = some way →
      way ≠ [] ∧ closeCycle target way ≠ [] := by
  refine ⟨fun d hd hkind => ?_, fun source target way hway => ?_⟩
  · have hreport := mem_cycleReports_iff.mpr ⟨hd, hkind⟩
    rw [cycleReports_validate] at hreport
    obtain ⟨c, hc, rfl⟩ := List.mem_map.mp hreport
    have hfound := mem_found_of_mem_cited hc
    obtain ⟨rest, hcycle, _, hreturn⟩ := exists_returnCycle_of_mem_found hfound
    obtain ⟨name, hcloses, hstep⟩ := closes_of_mem_cited hc
    obtain ⟨type, hplain, rfl⟩ := (DependencyKind.plainName?_eq_some_iff _ _).mp hcloses.plain
    refine ⟨c.reporter, (mem_found_iff.mp hfound).1, c.path.dependency, hcloses.mem, type, rest,
      hplain, hreturn.nodup, ?_, hreturn.chain, ?_⟩
    · rw [hcycle, List.cons_append, List.cons_prefix_cons] at hstep
      obtain ⟨more, hmore⟩ := hstep.2
      rw [← hmore]
      rfl
    · rw [← hcycle]
      rfl
  · obtain ⟨between, rfl, _⟩ := exists_simpleWay hway
    exact ⟨by simp, by unfold closeCycle; split <;> simp⟩

theorem cycleReport_genuine_touchingCycles :
    (∃ d ∈ (validate .full touchingCycles).diagnostics, d.kind = .circularDependency ∧
      ∃ r ∈ touchingCycles, ∃ parameter ∈ r.constructorDependencies, ∃ (type : TypeRef)
        (rest : List String), parameter.kind = .plain type ∧ (r.key :: rest).Nodup ∧
        (rest ++ [r.key]).head? = some type.name ∧
        (rest ++ [r.key]).IsChain (Edge touchingCycles) ∧
        d = ⟨.circularDependency r.concrete.name
              (String.intercalate " -> " (r.key :: rest ++ [r.key])),
            parameter.location.getD r.location⟩) ∧
    ∃ way, way? touchingCycles .full "IC" "IA" = some way ∧ way ≠ [] ∧
      closeCycle "IA" way ≠ [] := by
  have hmem : ⟨.circularDependency "B" "IB -> IC -> IB", ⟨"Program.cs", 10, 9⟩⟩ ∈
      (validate .full touchingCycles).diagnostics := by decide
  have hway : way? touchingCycles .full "IC" "IA" = some ["IC", "IB", "IA"] := by decide
  exact ⟨⟨_, hmem, rfl, (cycleReport_genuine touchingCycles .full).1 _ hmem rfl⟩,
    _, hway, (cycleReport_genuine touchingCycles .full).2 _ _ _ hway⟩

end Wiring.Graph
