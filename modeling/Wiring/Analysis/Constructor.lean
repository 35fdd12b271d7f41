import Wiring.Analysis.KnownSymbols
import Wiring.Diagnostic
/-! The one constructor that builds a concrete type. A single candidate is taken, marked or not;
of several, exactly one must be marked; and the one taken must be internal or public. -/
namespace Wiring

/-- Diagnostics that made an extraction give up a registration. -/
abbrev Rejection := List Diagnostic

structure SelectedConstructor where
  constructor : ConstructorCandidate
  dependencies : List Dependency
  deriving DecidableEq, Repr, Inhabited

namespace SymbolPort

/-- Constructors that injection may use: those declared in source, for instances. -/
def injectableConstructors (m : SymbolPort) (concrete : TypeRef) : List ConstructorCandidate :=
  (m.constructors concrete).filter fun c => !c.isStatic && !c.isSynthesized

/-- The constructor among the candidates. Every marked constructor after the first is reported. -/
def chooseConstructor (m : SymbolPort) (known : KnownSymbols) (concrete : TypeRef)
    (site : Location) : List ConstructorCandidate → Except Rejection ConstructorCandidate
  | [] => .error [⟨.noValidConstructor concrete.name, site⟩]
  | [only] => .ok only
  | candidates =>
    match candidates.filter fun c => m.hasMarker c.member known.constructorMarker with
    | [] => .error [⟨.noValidConstructor concrete.name, site⟩]
    | [marked] => .ok marked
    | _ :: others => .error (others.map fun c =>
        ⟨.multipleConstructorsMarked concrete.name, c.location.getD site⟩)

/-- The parameters of a constructor as dependencies. -/
def parameterDependencies (m : SymbolPort) (known : KnownSymbols) (c : ConstructorCandidate) :
    List Dependency :=
  c.parameters.map fun p => ⟨p.name, m.classify known p.type, p.location⟩

/-- The injectable constructor of `concrete`, for a registration at `site`. -/
def selectConstructor (m : SymbolPort) (known : KnownSymbols) (concrete : TypeRef)
    (site : Location) : Except Rejection SelectedConstructor :=
  match m.chooseConstructor known concrete site (m.injectableConstructors concrete) with
  | .error rejection => .error rejection
  | .ok chosen =>
    if (m.accessibility chosen.member).isAtLeastInternal then
      .ok ⟨chosen, m.parameterDependencies known chosen⟩
    else .error [⟨.constructorsMustBePublic concrete.name, chosen.location.getD site⟩]

end SymbolPort
end Wiring
