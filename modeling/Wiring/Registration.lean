import Wiring.Dependency
/-! The immutable result of extracting one registration call. -/
namespace Wiring

/-- Lifetime asked for by a registration call. -/
inductive RegistrationKind where
  /-- A new instance for every resolution. -/
  | transient
  /-- One instance, built on first use, under a thread-safety mode. -/
  | lazySingleton (mode : Option String)
  /-- An instance supplied by the caller. -/
  | constant
  deriving DecidableEq, Repr, Inhabited

namespace RegistrationKind

def isLazySingleton : RegistrationKind → Bool
  | .lazySingleton _ => true
  | _ => false

def isConstant : RegistrationKind → Bool
  | .constant => true
  | _ => false

def text : RegistrationKind → String
  | .transient => "transient"
  | .lazySingleton _ => "lazy singleton"
  | .constant => "constant"

/-- Thread-safety mode of a lazy singleton. -/
def mode? : RegistrationKind → Option String
  | .lazySingleton mode => mode
  | _ => none

end RegistrationKind

/-- One registration. Records are equal when all their parts are, the order of the dependency
lists included. -/
structure RegistrationRecord where
  interface : TypeRef
  concrete : TypeRef
  /-- Parameters of the selected constructor, in declaration order. -/
  constructorDependencies : List Dependency
  /-- Injected properties, those of the most derived type first. -/
  propertyDependencies : List Dependency
  /-- Contract key as an expression of generated code. -/
  contract : Option String
  kind : RegistrationKind
  /-- Where the registration call stands. -/
  location : Location
  deriving DecidableEq, Repr, Inhabited

namespace RegistrationRecord

/-- The name under which dependencies find the record. -/
def key (r : RegistrationRecord) : String := r.interface.name

def isLazySingleton (r : RegistrationRecord) : Bool := r.kind.isLazySingleton

def mode? (r : RegistrationRecord) : Option String := r.kind.mode?

/-- Where a dependency of the record is reported: at its own place, else at the call. -/
def locate (r : RegistrationRecord) (d : Dependency) : Location := d.location.getD r.location

end RegistrationRecord
end Wiring
