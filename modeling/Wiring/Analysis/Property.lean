import Wiring.Analysis.Constructor
/-! Injected properties: the marked ones along the inheritance chain, those of the most derived
type first. A shadowed property is kept at every level. -/
namespace Wiring.SymbolPort

/-- A property can be injected when it has a setter that is internal or public. -/
def isSettable (m : SymbolPort) (p : PropertyCandidate) : Bool :=
  p.hasSetter && (m.accessibility p.setter).isAtLeastInternal

/-- The marked properties declared on the type itself. -/
def markedProperties (m : SymbolPort) (known : KnownSymbols) (t : TypeRef) :
    List PropertyCandidate :=
  (m.properties t).filter fun p => m.hasMarker p.member known.propertyMarker

/-- One marked property as a dependency, refused when it cannot be set. -/
def propertyDependency (m : SymbolPort) (known : KnownSymbols) (site : Location)
    (p : PropertyCandidate) : Except Rejection Dependency :=
  if m.isSettable p then .ok ⟨p.name, m.classify known p.type, p.location⟩
  else
    let location := (p.setterLocation.orElse fun _ => p.location).getD site
    .error [⟨.propertyMustBeSettable p.qualifiedName, location⟩]

/-- The dependencies of a list of marked properties; the first that cannot be set rejects all. -/
def propertyDependencies (m : SymbolPort) (known : KnownSymbols) (site : Location) :
    List PropertyCandidate → Except Rejection (List Dependency)
  | [] => .ok []
  | p :: rest =>
    match m.propertyDependency known site p with
    | .error rejection => .error rejection
    | .ok dependency =>
      match m.propertyDependencies known site rest with
      | .error rejection => .error rejection
      | .ok dependencies => .ok (dependency :: dependencies)

/-- The injected properties of `concrete`, for a registration at `site`. -/
def discoverProperties (m : SymbolPort) (known : KnownSymbols) (concrete : TypeRef)
    (site : Location) : Except Rejection (List Dependency) :=
  m.propertyDependencies known site
    ((m.basesAndSelf concrete).flatMap (m.markedProperties known))

end Wiring.SymbolPort
