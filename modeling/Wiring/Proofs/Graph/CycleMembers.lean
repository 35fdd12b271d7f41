import Wiring.Proofs.Graph.CycleReports

/-! What a reported cycle says of the interfaces on it. When the record that reports it is the first
registration of its interface, all its steps are edges, and the first registration of every
interface on it is dropped. Every parameter that leads back to its record is a step of a reported
cycle, with one exception: of the ways back from an interface to itself, full detection takes the
one through the first parameter that leads back. -/
namespace Wiring.Graph

variable {records : List RegistrationRecord} {detection : CycleDetection}

/-! ## The first registrations on a cycle -/

/-- When the reporting record is the first registration of its interface, the steps of the cycle
are edges, and each of them leads back. -/
theorem edge_of_step_of_mem_cited {c : Citation} {name next : String}
    (h : c ∈ cited records detection) (hfirst : IsFirst records c.reporter.key c.reporter)
    (hstep : [name, next] <:+: c.path.cycle) :
    Edge records name next ∧ LeadsTo records detection next name := by
  have hfound := mem_found_of_mem_cited h
  obtain ⟨rest, hcycle, _, hreturn⟩ := exists_returnCycle_of_mem_found hfound
  obtain ⟨needed, hcloses, hprefix⟩ := closes_of_mem_cited h
  have hedge : Edge records c.reporter.key needed :=
    ⟨hcloses.leadsTo.registered, c.reporter, hfirst, hcloses.needs⟩
  rw [hcycle] at hstep
  have hchain : (c.reporter.key :: rest ++ [c.reporter.key]).IsChain (Edge records) := by
    rw [hcycle, List.cons_append, List.cons_prefix_cons] at hprefix
    obtain ⟨more, hmore⟩ := hprefix.2
    have hrest := hreturn.chain
    rw [← hmore] at hrest
    rw [List.cons_append, ← hmore]
    exact .cons_cons hedge hrest
  obtain ⟨hstepEdge, hback⟩ := reflTransGen_of_step hchain hstep
  refine ⟨hstepEdge, ?_⟩
  cases detection with
  | full =>
    rcases Relation.reflTransGen_iff_eq_or_transGen.mp hback with rfl | hreach
    · exact .single hstepEdge
    · exact hreach
  | pairwise =>
    obtain ⟨hneeded, hclosed⟩ := cycleThrough_pairwise hcloses.cycle
    rw [← hcycle, hclosed, pair_isInfix_iff] at hstep
    by_cases hself : needed = c.reporter.key
    · rw [hself, closeCycle_self] at hstep
      obtain ⟨rfl, rfl⟩ : name = c.reporter.key ∧ next = c.reporter.key := by simpa using hstep
      exact hself ▸ hneeded
    · rw [closeCycle_of_ne hself] at hstep
      have hends : (name = c.reporter.key ∧ next = needed) ∨
          (name = needed ∧ next = c.reporter.key) := by simpa using hstep
      rcases hends with ⟨rfl, rfl⟩ | ⟨rfl, rfl⟩
      · exact hneeded
      · exact hedge

theorem Edge.exists_cyclic {name next : String} (hedge : Edge records name next)
    (hleads : LeadsTo records detection next name) :
    ∃ first, IsFirst records name first ∧ Cyclic records detection first := by
  obtain ⟨_, first, hfirst, hneeds⟩ := hedge
  exact ⟨first, hfirst, next, hneeds, hfirst.key_eq.symm ▸ hleads⟩

/-- The record that reports a cycle is dropped, and if it is the first registration of its
interface, so is the first registration of every interface on the cycle. -/
theorem first_registrations_dropped (records : List RegistrationRecord)
    (detection : CycleDetection) :
    cycleReports (validate detection records) =
      (cited records detection).map Citation.diagnostic ∧
    ∀ c ∈ cited records detection,
      c.reporter ∈ records ∧ c.reporter ∉ (validate detection records).records ∧
      (IsFirst records c.reporter.key c.reporter → ∀ name ∈ c.path.cycle, ∃ first,
        IsFirst records name first ∧ first ∉ (validate detection records).records) := by
  refine ⟨cycleReports_validate records detection, fun c hc => ?_⟩
  obtain ⟨hr, name, hcloses⟩ := mem_found_iff.mp (mem_found_of_mem_cited hc)
  have hcyclic : Cyclic records detection c.reporter := ⟨name, hcloses.needs, hcloses.leadsTo⟩
  refine ⟨hr, hcyclic.not_mem_validate, fun hfirst name hname => ?_⟩
  obtain ⟨rest, hcycle, _⟩ := exists_returnCycle_of_mem_found (mem_found_of_mem_cited hc)
  rw [hcycle] at hname
  obtain ⟨next, hstep⟩ := exists_step_of_mem hname
  rw [← hcycle] at hstep
  obtain ⟨hedge, hleads⟩ := edge_of_step_of_mem_cited hc hfirst hstep
  obtain ⟨first, hisFirst, hback⟩ := hedge.exists_cyclic hleads
  exact ⟨first, hisFirst, hback.not_mem_validate⟩

theorem first_registrations_dropped_touchingCycles :
    ∃ c ∈ cited touchingCycles .full,
      IsFirst touchingCycles c.reporter.key c.reporter ∧ "IC" ∈ c.path.cycle ∧
      c.reporter ∉ (validate .full touchingCycles).records ∧
      ∃ first, IsFirst touchingCycles "IC" first ∧
        first ∉ (validate .full touchingCycles).records := by
  have hcited : ∃ c ∈ cited touchingCycles .full,
      lookup touchingCycles c.reporter.key = some c.reporter ∧ "IC" ∈ c.path.cycle := by decide
  obtain ⟨c, hc, hlookup, hname⟩ := hcited
  have hfirst := (lookup_eq_some_iff _ _ _).mp hlookup
  obtain ⟨_, hdropped, hall⟩ := (first_registrations_dropped touchingCycles .full).2 c hc
  exact ⟨c, hc, hfirst, hname, hdropped, hall hfirst "IC" hname⟩

/-- A later registration of an interface that leads back to it, where the first does not. -/
def laterRegistration : List RegistrationRecord :=
  [sampleRecord "IA" "A1" .transient [],
   sampleRecord "IA" "A2" .transient [("b", .plain ⟨0, "IB"⟩)],
   sampleRecord "IB" "B" .transient [("a", .plain ⟨0, "IA"⟩)]]

/-- The first registrations on the cycle that a later registration reports are all kept. -/
theorem first_registrations_kept_laterRegistration :
    (∃ c ∈ cited laterRegistration .full, ∀ name ∈ c.path.cycle,
      ∃ first ∈ (validate .full laterRegistration).records, IsFirst laterRegistration name first) ∧
    ∃ c ∈ cited laterRegistration .pairwise, ∀ name ∈ c.path.cycle,
      ∃ first ∈ (validate .pairwise laterRegistration).records,
        IsFirst laterRegistration name first := by
  simp only [← lookup_eq_some_iff]
  decide

/-! ## The steps of the parameters -/

/-- A cycle that returns to its start at once has no other node. -/
theorem ReturnCycle.rest_eq_nil {key : String} {rest : List String}
    (h : ReturnCycle records key rest) (hstep : [key, key] <+: key :: rest ++ [key]) :
    rest = [] := by
  cases rest with
  | nil => rfl
  | cons name rest =>
    obtain ⟨more, hmore⟩ := hstep
    have hname : key = name := (List.cons.inj (List.cons.inj hmore).2).1
    exact absurd (by simp [hname]) (List.nodup_cons.mp h.nodup).1

theorem exists_cited_loop_iff (name : String) :
    (∃ c ∈ cited records .full, c.path.cycle = [name, name]) ↔ FirstReturn records name name := by
  constructor
  · rintro ⟨c, hc, hloop⟩
    have hfound := mem_found_of_mem_cited hc
    obtain ⟨rest, hcycle, _⟩ := exists_returnCycle_of_mem_found hfound
    rw [hloop] at hcycle
    obtain rfl : name = c.reporter.key := (List.cons.inj hcycle).1
    obtain ⟨needed, hcloses, hstep⟩ := closes_of_mem_cited hc
    rw [hloop] at hstep
    obtain rfl : needed = c.reporter.key := by simpa using hstep
    obtain ⟨first, hfirst⟩ := exists_firstReturn hcloses.leadsTo
    obtain ⟨cycle, hself, _, hprefix⟩ := cycleThrough_firstReturn hfirst
    rw [Option.some.inj (hself.symm.trans hcloses.cycle), hloop] at hprefix
    obtain rfl : first = c.reporter.key := by simpa using hprefix
    exact hfirst
  · intro hreturn
    obtain ⟨⟨_, first, hfirst, hneeds⟩, cycle, hself, _, hprefix⟩ :=
      And.intro hreturn.edge (cycleThrough_firstReturn hreturn)
    obtain rfl := hfirst.key_eq
    obtain ⟨c, hfound, rfl, hthrough⟩ :=
      exists_found_of_needs hfirst.mem hneeds (leadsTo_of_cycleThrough hself)
    obtain ⟨rest, hcycle, hnodes, hclosed⟩ := exists_returnCycle_of_mem_found hfound
    rw [Option.some.inj (hself.symm.trans hthrough), hcycle] at hprefix
    rw [hclosed.rest_eq_nil hprefix] at hnodes
    obtain ⟨q, hq, hrotated⟩ := exists_cited_isRotated hfound
    obtain ⟨rest', hcycle', hnodes', _⟩ :=
      exists_returnCycle_of_mem_found (mem_found_of_mem_cited hq)
    rw [hnodes, hnodes', List.isRotated_singleton_iff'] at hrotated
    obtain ⟨hkey, rfl⟩ := List.cons.inj hrotated
    refine ⟨q, hq, ?_⟩
    rw [hcycle', ← hkey]
    rfl

/-- Under full detection every parameter whose type leads back to its record's interface is a step
of a cited cycle, unless it asks for this interface itself. Such a parameter is answered by a cycle
that leaves through the first parameter of the first registration that leads back; so the cycle of
one node is reported exactly where that parameter is the one on the own interface. -/
theorem parameters_cited (records : List RegistrationRecord) :
    cycleReports (validate .full records) = (cited records .full).map Citation.diagnostic ∧
    (∀ r ∈ records, ∀ name, r.Needs name → LeadsTo records .full name r.key →
      (name ≠ r.key → ∃ c ∈ cited records .full, [r.key, name] <:+: c.path.cycle) ∧
      (name = r.key → ∃ first, FirstReturn records r.key first ∧
        ∃ c ∈ cited records .full, [r.key, first] <:+: c.path.cycle)) ∧
    ∀ name, (∃ c ∈ cited records .full, c.path.cycle = [name, name]) ↔
      FirstReturn records name name := by
  refine ⟨cycleReports_validate records .full, fun r hr name hneeds hleads => ?_,
    exists_cited_loop_iff⟩
  obtain ⟨c, hfound, rfl, hthrough⟩ := exists_found_of_needs hr hneeds hleads
  constructor
  · intro hne
    exact exists_cited_step hfound (firstStep_of_ne hthrough hne).isInfix
  · rintro rfl
    obtain ⟨first, hfirst⟩ := exists_firstReturn hleads
    obtain ⟨cycle, hself, _, hprefix⟩ := cycleThrough_firstReturn hfirst
    obtain rfl := Option.some.inj (hself.symm.trans hthrough)
    exact ⟨first, hfirst, exists_cited_step hfound hprefix.isInfix⟩

/-- An interface that its first parameter leads back to, before the second asks for it. -/
def selfBehindOther : List RegistrationRecord :=
  [sampleRecord "IA" "A" .transient [("b", .plain ⟨0, "IB"⟩), ("me", .plain ⟨0, "IA"⟩)],
   sampleRecord "IB" "B" .transient [("a", .plain ⟨0, "IA"⟩)]]

theorem parameters_cited_selfBehindOther :
    ∃ r ∈ selfBehindOther,
      (r.Needs "IB" ∧ LeadsTo selfBehindOther .full "IB" r.key ∧ "IB" ≠ r.key ∧
        ∃ c ∈ cited selfBehindOther .full, [r.key, "IB"] <:+: c.path.cycle) ∧
      (r.Needs r.key ∧ LeadsTo selfBehindOther .full r.key r.key ∧
        ∃ first, FirstReturn selfBehindOther r.key first ∧
          ∃ c ∈ cited selfBehindOther .full, [r.key, first] <:+: c.path.cycle) := by
  have hcyclic : ∃ r ∈ selfBehindOther, "IB" ≠ r.key ∧
      ("IB" ∈ plainNames r ∧ (way? selfBehindOther .full "IB" r.key).isSome = true) ∧
      r.key ∈ plainNames r ∧ (way? selfBehindOther .full r.key r.key).isSome = true := by decide
  simp only [mem_plainNames_iff, isSome_way?_iff] at hcyclic
  obtain ⟨r, hr, hne, ⟨hneeds, hleads⟩, hown, hself⟩ := hcyclic
  have hcited := (parameters_cited selfBehindOther).2.1 r hr
  exact ⟨r, hr, ⟨hneeds, hleads, hne, (hcited _ hneeds hleads).1 hne⟩,
    hown, hself, (hcited _ hown hself).2 rfl⟩

/-- The first registration of the interface needs the interface itself, and pairwise detection
reports the cycle of one node, but full detection does not. -/
theorem not_cited_selfBehindOther :
    (∃ r, IsFirst selfBehindOther "IA" r ∧ r.Needs "IA" ∧
      LeadsTo selfBehindOther .full "IA" "IA") ∧
    (¬ ∃ c ∈ cited selfBehindOther .full, ["IA", "IA"] <:+: c.path.cycle) ∧
    ∃ c ∈ cited selfBehindOther .pairwise, c.path.cycle = ["IA", "IA"] := by
  have hself : ∃ r ∈ selfBehindOther, lookup selfBehindOther "IA" = some r ∧
      "IA" ∈ plainNames r ∧ (way? selfBehindOther .full "IA" "IA").isSome = true := by decide
  simp only [lookup_eq_some_iff, mem_plainNames_iff, isSome_way?_iff] at hself
  obtain ⟨r, _, hfirst, hneeds, hleads⟩ := hself
  exact ⟨⟨r, hfirst, hneeds, hleads⟩, by decide, by decide⟩

end Wiring.Graph
