/-! What an analysis is told beside its model. -/
namespace Wiring

/-- How far the validator follows constructor dependencies when it looks for cycles. -/
inductive CycleDetection where
  /-- Only the direct way back. -/
  | pairwise
  /-- Ways back of any length. -/
  | full
  deriving DecidableEq, Repr, Inhabited

/-- Metadata names of the wrapper and sequence types and of the marker attributes. -/
structure WellKnownNames where
  lazy : String := "System.Lazy`1"
  enumerable : String := "System.Collections.Generic.IEnumerable`1"
  constructorMarker : String := "Wirebind.DependencyInjectionConstructorAttribute"
  propertyMarker : String := "Wirebind.DependencyInjectionPropertyAttribute"
  deriving DecidableEq, Repr, Inhabited

structure AnalysisOptions where
  cycleDetection : CycleDetection := .full
  /-- Extract the sites side by side; the outcome is the same either way. -/
  parallel : Bool := true
  /-- The type that must declare an invoked registration method. -/
  registrationsType : String := "Wirebind.Registrations"
  wellKnown : WellKnownNames := {}
  deriving DecidableEq, Repr, Inhabited

/-- Names used by generated code. -/
structure EmitOptions where
  /-- Namespace of the generated partial class. -/
  enclosing : String := "Wirebind"
  className : String := "Registrations"
  /-- Expression of the service registry. -/
  resolver : String := "global::Wirebind.Locator.CurrentMutable"
  deriving DecidableEq, Repr, Inhabited

end Wiring
