import Wiring.Registration
import Wiring.Options
import Wiring.Graph.Search
/-! The registrations as a graph of interfaces. The first registration of an interface is the one
that dependencies resolve to. Only plain dependencies are edges: a lazy wrapper puts construction
off, and a collection is not resolved through one registration. -/
namespace Wiring.Graph

/-- The first registration of an interface. -/
def lookup (records : List RegistrationRecord) (name : String) : Option RegistrationRecord :=
  records.find? fun r => r.key == name

/-- Whether the interface is registered. -/
def isRegistered (records : List RegistrationRecord) (name : String) : Bool :=
  (lookup records name).isSome

/-- Names that have to be constructed before the record can be. -/
def plainNames (r : RegistrationRecord) : List String :=
  r.constructorDependencies.filterMap fun d => d.kind.plainName?

/-- Edges out of an interface: the registered plain dependencies of its first registration. -/
def successors (records : List RegistrationRecord) (name : String) : List String :=
  match lookup records name with
  | some r => (plainNames r).filter (isRegistered records)
  | none => []

/-- A way `[source, …, target]` of at least one edge, if the detection finds one. -/
def way? (records : List RegistrationRecord) (detection : CycleDetection)
    (source target : String) : Option (List String) :=
  match detection with
  | .pairwise => if target ∈ successors records source then some [source, target] else none
  | .full => (search (successors records) target (records.length + 1) source [source]).1

end Wiring.Graph
