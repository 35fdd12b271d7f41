import Wiring.Analysis.Extraction

/-! Rejections say why. Selection, discovery and therefore extraction reject a registration with
at least one diagnostic, and with errors only. -/
namespace Wiring

/-- A rejection that reports something, and nothing but errors. -/
structure Rejection.Reports (rejection : Rejection) : Prop where
  nonempty : rejection ≠ []
  errors : ∀ d ∈ rejection, d.isError = true

theorem Rejection.reports_singleton {d : Diagnostic} (h : d.isError = true) :
    Rejection.Reports [d] :=
  ⟨List.cons_ne_nil d [], by simpa using h⟩

namespace SymbolPort

variable {m : SymbolPort} {known : KnownSymbols} {concrete : TypeRef} {site : Location}
variable {rejection : Rejection}

/-- Of several marked constructors the first is not reported, but there is a second. -/
theorem reports_of_chooseConstructor {candidates : List ConstructorCandidate}
    (h : m.chooseConstructor known concrete site candidates = .error rejection) :
    rejection.Reports := by
  unfold chooseConstructor at h
  split at h
  · cases h
    exact Rejection.reports_singleton rfl
  · cases h
  · split at h
    · cases h
      exact Rejection.reports_singleton rfl
    · cases h
    · rename_i first others hsingle _
      cases h
      refine ⟨?_, ?_⟩
      · intro hnil
        rw [List.map_eq_nil_iff] at hnil
        exact hsingle hnil
      · intro d hd
        obtain ⟨c, _, rfl⟩ := List.mem_map.mp hd
        rfl

theorem reports_of_selectConstructor
    (h : m.selectConstructor known concrete site = .error rejection) : rejection.Reports := by
  unfold selectConstructor at h
  split at h
  · rename_i hchoose
    cases h
    exact reports_of_chooseConstructor hchoose
  · split at h
    · cases h
    · cases h
      exact Rejection.reports_singleton rfl

theorem reports_of_propertyDependency {p : PropertyCandidate}
    (h : m.propertyDependency known site p = .error rejection) : rejection.Reports := by
  unfold propertyDependency at h
  split at h
  · cases h
  · cases h
    exact Rejection.reports_singleton rfl

theorem reports_of_propertyDependencies {properties : List PropertyCandidate}
    (h : m.propertyDependencies known site properties = .error rejection) :
    rejection.Reports := by
  induction properties with
  | nil => cases h
  | cons p rest ih =>
    unfold propertyDependencies at h
    split at h
    · rename_i hproperty
      cases h
      exact reports_of_propertyDependency hproperty
    · split at h
      · rename_i hrest
        cases h
        exact ih hrest
      · cases h

end SymbolPort

namespace Extractor

variable {e : Extractor} {rejection : Rejection}

theorem reports_of_dependencies {shape : CallShape} {concrete : TypeRef} {site : Location}
    (h : e.dependencies shape concrete site = .error rejection) : rejection.Reports := by
  unfold dependencies at h
  split at h
  · cases h
  · split at h
    · rename_i hselect
      cases h
      exact SymbolPort.reports_of_selectConstructor hselect
    · split at h
      · rename_i hdiscover
        cases h
        exact SymbolPort.reports_of_propertyDependencies hdiscover
      · cases h

/-- A site is rejected with errors, and with at least one. -/
theorem reports_of_extract {site : InvocationSite} (h : e.extract site = .error rejection) :
    rejection.Reports := by
  unfold extract at h
  split at h
  · split at h
    · rename_i hdependencies
      cases h
      exact reports_of_dependencies hdependencies
    · cases h
  · cases h

end Extractor
end Wiring
