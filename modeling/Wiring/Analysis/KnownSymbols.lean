import Wiring.Analysis.Port
import Wiring.Options
import Wiring.Dependency
/-! Well-known types and marker attributes. One is recognized by identity when the compilation
references it, and by its exact name otherwise, so that an analysis needs no hard reference. -/
namespace Wiring

/-- Identity with the resolved symbol, else equality with the canonical name. -/
def symbolMatches (candidate : TypeRef) (resolved : Option TypeRef) (canonical : String) : Bool :=
  match resolved with
  | some symbol => symbol.isSameSymbol candidate
  | none => candidate.name == canonical

/-- A well-known symbol, resolved once for a model. -/
structure KnownSymbol where
  canonical : String
  resolved : Option TypeRef
  deriving DecidableEq, Repr, Inhabited

namespace KnownSymbol

def resolve (m : SymbolPort) (canonical : String) : KnownSymbol :=
  ⟨canonical, m.resolveWellKnown? canonical⟩

def isResolved (k : KnownSymbol) : Bool := k.resolved.isSome

/-- Whether `candidate` is the symbol. -/
def recognizes (k : KnownSymbol) (candidate : TypeRef) : Bool :=
  symbolMatches candidate k.resolved k.canonical

end KnownSymbol

structure KnownSymbols where
  lazy : KnownSymbol
  enumerable : KnownSymbol
  constructorMarker : KnownSymbol
  propertyMarker : KnownSymbol
  deriving DecidableEq, Repr, Inhabited

def KnownSymbols.resolve (m : SymbolPort) (names : WellKnownNames) : KnownSymbols :=
  { lazy := .resolve m names.lazy
    enumerable := .resolve m names.enumerable
    constructorMarker := .resolve m names.constructorMarker
    propertyMarker := .resolve m names.propertyMarker }

namespace SymbolPort

/-- Whether a member carries the marker attribute. -/
def hasMarker (m : SymbolPort) (member : MemberRef) (marker : KnownSymbol) : Bool :=
  (m.attributes member).any marker.recognizes

/-- How a type is satisfied. Only instantiations of the wrapper and sequence definitions with
exactly one argument are special; every other type stands for itself. -/
def classify (m : SymbolPort) (known : KnownSymbols) (t : TypeRef) : DependencyKind :=
  match m.genericArguments t with
  | [argument] =>
    if known.lazy.recognizes (m.originalDefinition t) then .deferred argument
    else if known.enumerable.recognizes (m.originalDefinition t) then .collectionOf argument
    else .plain t
  | _ => .plain t

end SymbolPort
end Wiring
