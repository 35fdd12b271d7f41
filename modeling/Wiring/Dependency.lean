import Wiring.Symbol
/-! What a constructor parameter or an injected property asks of the service registry. -/
namespace Wiring

/-- How a parameter or property type is satisfied at run time. -/
inductive DependencyKind where
  /-- Resolve the type itself. -/
  | plain (type : TypeRef)
  /-- Resolve a lazily constructed wrapper over the type. -/
  | deferred (type : TypeRef)
  /-- Resolve every registered implementation of the type. -/
  | collectionOf (type : TypeRef)
  deriving DecidableEq, Repr, Inhabited

namespace DependencyKind

/-- The type the registry is asked for: the inner or item type of a wrapper. -/
def target : DependencyKind → TypeRef
  | .plain t => t
  | .deferred t => t
  | .collectionOf t => t

def isPlain : DependencyKind → Bool
  | .plain _ => true
  | _ => false

def text : DependencyKind → String
  | .plain t => t.name
  | .deferred t => "lazy " ++ t.name
  | .collectionOf t => "all of " ++ t.name

/-- The name asked for when the type itself has to exist before its dependant. -/
def plainName? : DependencyKind → Option String
  | .plain t => some t.name
  | _ => none

/-- The name whose construction a lazy wrapper puts off. -/
def deferredName? : DependencyKind → Option String
  | .deferred t => some t.name
  | _ => none

end DependencyKind

/-- A named constructor parameter or injected property. -/
structure Dependency where
  name : String
  kind : DependencyKind
  location : Option Location
  deriving DecidableEq, Repr, Inhabited

end Wiring
