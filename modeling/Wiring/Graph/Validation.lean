import Wiring.Diagnostic
import Wiring.Graph.Registry
import Wiring.Graph.Cycle
/-! Checks over all registrations together: repeated interfaces, constructor cycles, and lazy
parameters whose target is not registered lazily. A record that fails is dropped; a warning drops
nothing. Each distinct cycle is reported once, but every record on it is dropped. -/
namespace Wiring.Graph

/-- Records that passed, in order, and everything reported. -/
structure Validated where
  records : List RegistrationRecord
  diagnostics : List Diagnostic
  deriving DecidableEq, Repr, Inhabited

/-- A warning for each record whose interface is among `seen` or an earlier record. -/
def repetitions : List String → List RegistrationRecord → List Diagnostic
  | _, [] => []
  | seen, r :: rest =>
    if r.key ∈ seen then
      ⟨.interfaceRegisteredMultipleTimes r.key, r.location⟩ :: repetitions seen rest
    else repetitions (r.key :: seen) rest

/-- A constructor dependency of a record that leads back to the record's interface. -/
structure ReturnPath where
  dependency : Dependency
  cycle : List String
  deriving DecidableEq, Repr, Inhabited

/-- The cycle closed by a way from a dependency of `key` back to `key`. A dependency on `key`
itself closes it with its own first step. -/
def closeCycle (key : String) (way : List String) : List String :=
  if way.head? = some key then way else key :: way

/-- The way back through one dependency. -/
def returnPath? (records : List RegistrationRecord) (detection : CycleDetection)
    (r : RegistrationRecord) (d : Dependency) : Option ReturnPath :=
  d.kind.plainName?.bind fun name =>
    (way? records detection name r.key).map fun way => ⟨d, closeCycle r.key way⟩

/-- Every way back from a record to its own interface, by parameter. -/
def returnPaths (records : List RegistrationRecord) (detection : CycleDetection)
    (r : RegistrationRecord) : List ReturnPath :=
  r.constructorDependencies.filterMap (returnPath? records detection r)

/-- A lazy parameter whose target is registered, but not as a lazy singleton. -/
def isLazyMismatch (records : List RegistrationRecord) (d : Dependency) : Bool :=
  match d.kind.deferredName? with
  | some name =>
    match lookup records name with
    | some target => !target.isLazySingleton
    | none => false
  | none => false

/-- The lazy parameters of a record that cannot be satisfied. -/
def lazyMismatches (records : List RegistrationRecord) (r : RegistrationRecord) :
    List Dependency :=
  r.constructorDependencies.filter (isLazyMismatch records)

/-- Whether validation keeps the record. -/
def isSound (records : List RegistrationRecord) (detection : CycleDetection)
    (r : RegistrationRecord) : Bool :=
  (returnPaths records detection r).isEmpty && (lazyMismatches records r).isEmpty

/-- The report of one cycle. -/
def ReturnPath.diagnostic (r : RegistrationRecord) (p : ReturnPath) : Diagnostic :=
  ⟨.circularDependency r.concrete.name (String.intercalate " -> " p.cycle), r.locate p.dependency⟩

/-- The paths whose cycle is not among the reported ones, and the reported ones after them. -/
def freshPaths : List (List String) → List ReturnPath → List ReturnPath × List (List String)
  | reported, [] => ([], reported)
  | reported, p :: rest =>
    if cycleIdentity p.cycle ∈ reported then freshPaths reported rest
    else
      match freshPaths (cycleIdentity p.cycle :: reported) rest with
      | (fresh, reported) => (p :: fresh, reported)

/-- The report of one lazy parameter. -/
def lazyDiagnostic (r : RegistrationRecord) (d : Dependency) : Diagnostic :=
  ⟨.lazyParameterNotRegisteredLazy r.concrete.name d.name d.kind.target.name, r.locate d⟩

/-- What is reported about the records, one after the other, cycles before lazy parameters. -/
def recordDiagnostics (records : List RegistrationRecord) (detection : CycleDetection) :
    List (List String) → List RegistrationRecord → List Diagnostic
  | _, [] => []
  | reported, r :: rest =>
    match freshPaths reported (returnPaths records detection r) with
    | (fresh, reported) =>
      fresh.map (ReturnPath.diagnostic r) ++ (lazyMismatches records r).map (lazyDiagnostic r)
        ++ recordDiagnostics records detection reported rest

/-- Validates a whole set of registrations. -/
def validate (detection : CycleDetection) (records : List RegistrationRecord) : Validated :=
  { records := records.filter (isSound records detection)
    diagnostics := repetitions [] records ++ recordDiagnostics records detection [] records }

end Wiring.Graph
