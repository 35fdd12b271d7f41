import Wiring.Analysis.Property
import Wiring.Invocation
import Wiring.Registration
/-! From one call to one registration record. A call that is no registration is dropped without a
word; a registration that cannot be wired is rejected with diagnostics. -/
namespace Wiring

/-- The registration methods. -/
inductive CallShape where
  | register | registerLazySingleton | registerConstant
  deriving DecidableEq, Repr, Inhabited

namespace CallShape

def methodName : CallShape → String
  | .register => "Register"
  | .registerLazySingleton => "RegisterLazySingleton"
  | .registerConstant => "RegisterConstant"

def ofMethodName? (name : String) : Option CallShape :=
  [register, registerLazySingleton, registerConstant].find? fun shape => shape.methodName == name

end CallShape

/-- A registration call has at most this many ordinary arguments. -/
def maxOrdinaryArguments : Nat := 2

/-- The parameter that carries the contract key. -/
def contractParameter : String := "contract"

/-- The parameter that carries the thread-safety mode. -/
def modeParameter : String := "mode"

namespace InvocationSite

/-- Interface and concrete type, one type argument standing for both. -/
def registeredTypes? (site : InvocationSite) : Option (TypeRef × TypeRef) :=
  match site.typeArguments with
  | [single] => some (single, single)
  | [interface, concrete] => some (interface, concrete)
  | _ => none

/-- The registration method a call was bound to, if it was bound to one. -/
def shape? (site : InvocationSite) (registrationsType : String) : Option CallShape :=
  match CallShape.ofMethodName? site.methodName, site.binding with
  | some shape, some binding =>
    if binding.containingType == registrationsType && !binding.isExtension
        && site.arguments.length ≤ maxOrdinaryArguments
    then some shape else none
  | _, _ => none

/-- Contract key of the registration. -/
def contract? (site : InvocationSite) : Option String :=
  (site.argumentFor contractParameter).bind Expression.contractText?

/-- Thread-safety mode of the registration. -/
def mode? (site : InvocationSite) : Option String :=
  (site.argumentFor modeParameter).bind Expression.modeText?

/-- The lifetime a registration of the given shape asks for. -/
def kind (site : InvocationSite) : CallShape → RegistrationKind
  | .register => .transient
  | .registerLazySingleton => .lazySingleton site.mode?
  | .registerConstant => .constant

end InvocationSite

/-- A record, nothing when the call is no registration, or a rejection. -/
abbrev Extraction := Except Rejection (Option RegistrationRecord)

/-- What extraction needs beside the site. -/
structure Extractor where
  model : SymbolPort
  known : KnownSymbols
  registrationsType : String

namespace Extractor

def ofOptions (m : SymbolPort) (options : AnalysisOptions) : Extractor :=
  ⟨m, .resolve m options.wellKnown, options.registrationsType⟩

/-- What constructing `concrete` depends on: parameters, then properties. Nothing is constructed
for an instance the caller supplies. -/
def dependencies (e : Extractor) (shape : CallShape) (concrete : TypeRef) (site : Location) :
    Except Rejection (List Dependency × List Dependency) :=
  match shape with
  | .registerConstant => .ok ([], [])
  | _ =>
    match e.model.selectConstructor e.known concrete site with
    | .error rejection => .error rejection
    | .ok selected =>
      match e.model.discoverProperties e.known concrete site with
      | .error rejection => .error rejection
      | .ok properties => .ok (selected.dependencies, properties)

def extract (e : Extractor) (site : InvocationSite) : Extraction :=
  match site.shape? e.registrationsType, site.registeredTypes? with
  | some shape, some (interface, concrete) =>
    match e.dependencies shape concrete site.location with
    | .error rejection => .error rejection
    | .ok (parameters, properties) =>
      .ok (some {
        interface, concrete
        constructorDependencies := parameters
        propertyDependencies := properties
        contract := site.contract?
        kind := site.kind shape
        location := site.location })
  | _, _ => .ok none

end Extractor
end Wiring
