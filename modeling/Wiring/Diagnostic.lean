import Wiring.Symbol
/-! Errors and warnings about the analyzed registrations, under stable identifiers. -/
namespace Wiring

inductive Severity where
  | warning | error
  deriving DecidableEq, Repr, Inhabited

namespace Severity

/-- The form used in reports. -/
def text : Severity → String
  | .error => "ERROR"
  | .warning => "WARNING"

/-- The form used in lines that build tools read. -/
def lowerText : Severity → String
  | .error => "error"
  | .warning => "warning"

/-- The name of the level in written data. -/
def name : Severity → String
  | .error => "Error"
  | .warning => "Warning"

end Severity

/-- What can be wrong with a registration. -/
inductive Problem where
  | noValidConstructor (typeName : String)
  | propertyMustBeSettable (property : String)
  | multipleConstructorsMarked (typeName : String)
  | constructorsMustBePublic (typeName : String)
  | circularDependency (typeName : String) (cycle : String)
  | interfaceRegisteredMultipleTimes (interface : String)
  | lazyParameterNotRegisteredLazy (typeName parameter target : String)
  deriving DecidableEq, Repr, Inhabited

/-- The kinds of problem, without their details. -/
inductive ProblemKind where
  | noValidConstructor | propertyMustBeSettable | multipleConstructorsMarked
  | constructorsMustBePublic | circularDependency | interfaceRegisteredMultipleTimes
  | lazyParameterNotRegisteredLazy
  deriving DecidableEq, Repr, Inhabited

namespace ProblemKind

/-- Every kind, by ascending identifier. -/
def all : List ProblemKind :=
  [.noValidConstructor, .propertyMustBeSettable, .multipleConstructorsMarked,
   .constructorsMustBePublic, .circularDependency, .interfaceRegisteredMultipleTimes,
   .lazyParameterNotRegisteredLazy]

/-- Stable identifier. -/
def id : ProblemKind → String
  | .noValidConstructor => "D001"
  | .propertyMustBeSettable => "D002"
  | .multipleConstructorsMarked => "D003"
  | .constructorsMustBePublic => "D004"
  | .circularDependency => "D005"
  | .interfaceRegisteredMultipleTimes => "D006"
  | .lazyParameterNotRegisteredLazy => "D007"

/-- A repeated interface is only a warning: the first registration stays usable. -/
def severity : ProblemKind → Severity
  | .interfaceRegisteredMultipleTimes => .warning
  | _ => .error

/-- Short description. -/
def title : ProblemKind → String
  | .noValidConstructor => "No valid constructor"
  | .propertyMustBeSettable => "Injected property must be settable"
  | .multipleConstructorsMarked => "Multiple constructors marked"
  | .constructorsMustBePublic => "Constructor must be public or internal"
  | .circularDependency => "Circular constructor dependency"
  | .interfaceRegisteredMultipleTimes => "Interface registered multiple times"
  | .lazyParameterNotRegisteredLazy => "Lazy parameter not registered lazily"

end ProblemKind

namespace Problem

def kind : Problem → ProblemKind
  | .noValidConstructor _ => .noValidConstructor
  | .propertyMustBeSettable _ => .propertyMustBeSettable
  | .multipleConstructorsMarked _ => .multipleConstructorsMarked
  | .constructorsMustBePublic _ => .constructorsMustBePublic
  | .circularDependency _ _ => .circularDependency
  | .interfaceRegisteredMultipleTimes _ => .interfaceRegisteredMultipleTimes
  | .lazyParameterNotRegisteredLazy _ _ _ => .lazyParameterNotRegisteredLazy

def message : Problem → String
  | .noValidConstructor typeName =>
    "'" ++ typeName ++ "' has no unambiguous constructor: mark exactly "
      ++ "one constructor with the constructor injection attribute"
  | .propertyMustBeSettable property =>
    "Property '" ++ property ++ "' is marked for injection but has no internal or public setter"
  | .multipleConstructorsMarked typeName =>
    "'" ++ typeName ++ "' has more than one constructor marked with the "
      ++ "constructor injection attribute"
  | .constructorsMustBePublic typeName =>
    "The injected constructor of '" ++ typeName ++ "' must be public or internal"
  | .circularDependency typeName cycle =>
    "'" ++ typeName ++ "' has a circular constructor dependency: " ++ cycle
  | .interfaceRegisteredMultipleTimes interface =>
    "'" ++ interface ++ "' is registered more than once; only the "
      ++ "first registration is used to resolve dependencies"
  | .lazyParameterNotRegisteredLazy typeName parameter target =>
    "Parameter '" ++ parameter ++ "' of '" ++ typeName ++ "' is a lazy wrapper over '" ++ target
      ++ "', which is not registered with RegisterLazySingleton"

end Problem

/-- A problem and the place it is reported at. -/
structure Diagnostic where
  problem : Problem
  location : Location
  deriving DecidableEq, Repr, Inhabited

namespace Diagnostic

def kind (d : Diagnostic) : ProblemKind := d.problem.kind
def id (d : Diagnostic) : String := d.kind.id
def severity (d : Diagnostic) : Severity := d.kind.severity
def title (d : Diagnostic) : String := d.kind.title
def message (d : Diagnostic) : String := d.problem.message
def isError (d : Diagnostic) : Bool := d.severity == .error

/-- `file:line:column: error D001: message`. -/
def compilerLine (d : Diagnostic) : String :=
  d.location.text ++ ": " ++ d.severity.lowerText ++ " " ++ d.id ++ ": " ++ d.message

end Diagnostic

/-- The listing of every kind: identifier, severity padded to seven columns, title. -/
def ProblemKind.catalogText : String :=
  String.join (ProblemKind.all.map fun k =>
    k.id ++ "  " ++ k.severity.text
    ++ String.ofList (List.replicate (7 - k.severity.text.length) ' ')
      ++ "  " ++ k.title ++ "\n")

end Wiring
