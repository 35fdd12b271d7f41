import Wiring.Proofs.Graph.CycleMembers

/-! Where fewer ways lead back, no more records are dropped. There are fewer among a part of the
registrations whose interfaces keep their first registrations, and fewer for pairwise detection
than for full detection. -/
namespace Wiring.Graph

variable {records part : List RegistrationRecord} {detection : CycleDetection}

/-- A sound record stays sound where no way and no first registration is added. -/
theorem Sound.imp {narrower : CycleDetection} {r : RegistrationRecord}
    (h : Sound records detection r)
    (hleads : ∀ source target, LeadsTo part narrower source target →
      LeadsTo records detection source target)
    (hfirst : ∀ name first, IsFirst part name first → IsFirst records name first) :
    Sound part narrower r where
  acyclic name hneeds hway := h.acyclic name hneeds (hleads name r.key hway)
  lazyTargets name hdefers target htarget :=
    h.lazyTargets name hdefers target (hfirst name target htarget)

/-! ## Fewer registrations -/

/-- The records that validation drops, in their order. -/
def dropped (detection : CycleDetection) (records : List RegistrationRecord) :
    List RegistrationRecord :=
  records.filter (· ∉ (validate detection records).records)

theorem dropped_eq_filter (detection : CycleDetection) (records : List RegistrationRecord) :
    dropped detection records = records.filter fun r => !isSound records detection r := by
  apply List.filter_congr
  intro r hr
  simp [mem_validate_iff, ← isSound_iff, hr]

section Part

variable (hfirst : ∀ name first, IsFirst part name first → IsFirst records name first)
include hfirst

theorem Registered.of_part {name : String} (h : Registered part name) :
    Registered records name := by
  obtain ⟨first, hisFirst⟩ := (exists_isFirst_iff part name).mpr h
  exact (exists_isFirst_iff records name).mp ⟨first, hfirst name first hisFirst⟩

theorem Edge.of_part {source target : String} (h : Edge part source target) :
    Edge records source target := by
  obtain ⟨hregistered, first, hisFirst, hneeds⟩ := h
  exact ⟨hregistered.of_part hfirst, first, hfirst source first hisFirst, hneeds⟩

theorem LeadsTo.of_part {source target : String} (h : LeadsTo part detection source target) :
    LeadsTo records detection source target := by
  cases detection with
  | pairwise => exact Edge.of_part hfirst h
  | full => exact Relation.TransGen.mono (fun _ _ => Edge.of_part hfirst) source target h

theorem Sound.of_part {r : RegistrationRecord} (h : Sound records detection r) :
    Sound part detection r :=
  h.imp (fun _ _ hway => hway.of_part hfirst) hfirst

end Part

/-- Further registrations only make validation drop more, as long as every interface that was there
before keeps its first registration. -/
theorem validate_monotone {part records : List RegistrationRecord} (detection : CycleDetection)
    (hpart : part.Sublist records)
    (hfirst : ∀ name first, IsFirst part name first → IsFirst records name first) :
    (∀ r ∈ part, r ∈ (validate detection records).records →
      r ∈ (validate detection part).records) ∧
    (dropped detection part).Sublist (dropped detection records) := by
  constructor
  · intro r hr hkept
    rw [mem_validate_iff] at hkept ⊢
    exact ⟨hr, hkept.2.of_part hfirst⟩
  · rw [dropped_eq_filter, dropped_eq_filter]
    refine List.Sublist.trans (List.monotone_filter_right part fun r hdropped => ?_)
      (hpart.filter _)
    rw [Bool.not_eq_true', ← Bool.not_eq_true, isSound_iff] at hdropped ⊢
    exact fun hsound => hdropped (hsound.of_part hfirst)

/-- Without the last record nothing leads back to the second one, which is then kept. -/
theorem validate_monotone_laterRegistration :
    ∃ part, part.Sublist laterRegistration ∧
      (∀ name first, IsFirst part name first → IsFirst laterRegistration name first) ∧
      (∃ r ∈ part, r ∈ (validate .full laterRegistration).records ∧
        r ∈ (validate .full part).records) ∧
      (dropped .full part).Sublist (dropped .full laterRegistration) ∧
      dropped .full part ≠ dropped .full laterRegistration := by
  have happend : laterRegistration.dropLast ++
      [sampleRecord "IB" "B" .transient [("a", .plain ⟨0, "IA"⟩)]] = laterRegistration := rfl
  have hfirst : ∀ name first, IsFirst laterRegistration.dropLast name first →
      IsFirst laterRegistration name first := fun name first h => happend ▸ h.append _
  obtain ⟨hkept, hdropped⟩ :=
    validate_monotone .full (List.dropLast_sublist laterRegistration) hfirst
  have hmem : sampleRecord "IA" "A1" .transient [] ∈ laterRegistration.dropLast := by decide
  have hmem' : sampleRecord "IA" "A1" .transient [] ∈
      (validate .full laterRegistration).records := by decide
  exact ⟨_, List.dropLast_sublist laterRegistration, hfirst,
    ⟨_, hmem, hmem', hkept _ hmem hmem'⟩, hdropped, by decide⟩

/-! ## The narrower detection -/

theorem LeadsTo.full_of_pairwise {source target : String}
    (h : LeadsTo records .pairwise source target) : LeadsTo records .full source target :=
  .single h

theorem Sound.pairwise_of_full {r : RegistrationRecord} (h : Sound records .full r) :
    Sound records .pairwise r :=
  h.imp (fun _ _ hway => hway.full_of_pairwise) fun _ _ hfirst => hfirst

theorem returnPaths_pairwise_ne_nil_iff {r : RegistrationRecord} (hr : r ∈ records) :
    returnPaths records .pairwise r ≠ [] ↔
      ∃ name first, r.Needs name ∧ IsFirst records name first ∧ first.Needs r.key := by
  rw [Ne, returnPaths_eq_nil_iff]
  push Not
  constructor
  · rintro ⟨name, hneeds, _, first, hfirst, hback⟩
    exact ⟨name, first, hneeds, hfirst, hback⟩
  · rintro ⟨name, first, hneeds, hfirst, hback⟩
    exact ⟨name, hneeds, ⟨r, hr, rfl⟩, first, hfirst, hback⟩

theorem not_mem_validate_iff {r : RegistrationRecord} (hr : r ∈ records) :
    r ∉ (validate detection records).records ↔
      returnPaths records detection r ≠ [] ∨ lazyMismatches records r ≠ [] := by
  rw [mem_validate_iff, ← isSound_iff, isSound, Bool.and_eq_true, List.isEmpty_iff,
    List.isEmpty_iff]
  simp only [hr, true_and, not_and_or]

/-- Pairwise detection drops only what full detection drops, and both report the same repeated
interfaces and the same lazy parameters. For a cycle it drops exactly the records that need an
interface whose first registration needs theirs. -/
theorem pairwise_restricts_full (records : List RegistrationRecord) :
    (validate .full records).records.Sublist (validate .pairwise records).records ∧
    reportsOf .interfaceRegisteredMultipleTimes (validate .full records) =
      reportsOf .interfaceRegisteredMultipleTimes (validate .pairwise records) ∧
    reportsOf .lazyParameterNotRegisteredLazy (validate .full records) =
      reportsOf .lazyParameterNotRegisteredLazy (validate .pairwise records) ∧
    ∀ r ∈ records,
      (r ∉ (validate .pairwise records).records ↔
        returnPaths records .pairwise r ≠ [] ∨ lazyMismatches records r ≠ []) ∧
      (returnPaths records .pairwise r ≠ [] ↔
        ∃ name first, r.Needs name ∧ IsFirst records name first ∧ first.Needs r.key) := by
  refine ⟨?_, ?_, ?_, fun r hr => ⟨not_mem_validate_iff hr, returnPaths_pairwise_ne_nil_iff hr⟩⟩
  · refine List.monotone_filter_right records fun r hsound => ?_
    rw [isSound_iff] at hsound ⊢
    exact hsound.pairwise_of_full
  · rw [reportsOf_repeatedInterface_validate, reportsOf_repeatedInterface_validate]
  · rw [reportsOf_lazyParameter_validate, reportsOf_lazyParameter_validate]

/-- A cycle of three interfaces, and one of two. -/
def longAndShortCycle : List RegistrationRecord :=
  [sampleRecord "IA" "A" .transient [("b", .plain ⟨0, "IB"⟩)],
   sampleRecord "IB" "B" .transient [("c", .plain ⟨0, "IC"⟩)],
   sampleRecord "IC" "C" .transient [("a", .plain ⟨0, "IA"⟩)],
   sampleRecord "ID" "D" .transient [("e", .plain ⟨0, "IE"⟩)],
   sampleRecord "IE" "E" .transient [("d", .plain ⟨0, "ID"⟩)]]

/-- Pairwise detection drops the short cycle only. -/
theorem pairwise_restricts_full_longAndShortCycle :
    (∃ r ∈ longAndShortCycle, returnPaths longAndShortCycle .pairwise r ≠ [] ∧
      r ∉ (validate .pairwise longAndShortCycle).records ∧
      ∃ name first, r.Needs name ∧ IsFirst longAndShortCycle name first ∧ first.Needs r.key) ∧
    (validate .full longAndShortCycle).records.Sublist
      (validate .pairwise longAndShortCycle).records ∧
    (validate .full longAndShortCycle).records ≠
      (validate .pairwise longAndShortCycle).records := by
  have hmem : sampleRecord "ID" "D" .transient [("e", .plain ⟨0, "IE"⟩)] ∈ longAndShortCycle := by
    decide
  have hcycle : returnPaths longAndShortCycle .pairwise
      (sampleRecord "ID" "D" .transient [("e", .plain ⟨0, "IE"⟩)]) ≠ [] := by decide
  obtain ⟨hkept, _, _, hdrops⟩ := pairwise_restricts_full longAndShortCycle
  obtain ⟨hdropped, hneeds⟩ := hdrops _ hmem
  exact ⟨⟨_, hmem, hcycle, hdropped.mpr (Or.inl hcycle), hneeds.mp hcycle⟩, hkept, by decide⟩

end Wiring.Graph
