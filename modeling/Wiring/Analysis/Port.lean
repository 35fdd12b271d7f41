import Wiring.Symbol
/-! What an analysis asks of a symbol model. Every question has an answer, and the same one each
time it is asked. -/
namespace Wiring

structure SymbolPort where
  /-- Every constructor of a type, declared or synthesized. -/
  constructors : TypeRef → List ConstructorCandidate
  /-- The properties declared on a type itself. -/
  properties : TypeRef → List PropertyCandidate
  /-- The inheritance chain, the type itself first. -/
  basesAndSelf : TypeRef → List TypeRef
  /-- Classes of the attributes applied to a member. -/
  attributes : MemberRef → List TypeRef
  /-- The type of a metadata name, if the compilation references it. -/
  resolveWellKnown? : String → Option TypeRef
  /-- Type arguments of a constructed generic type. -/
  genericArguments : TypeRef → List TypeRef
  /-- The generic definition of a constructed type, or the type itself. -/
  originalDefinition : TypeRef → TypeRef
  /-- Declared accessibility of a member. -/
  accessibility : MemberRef → Accessibility

end Wiring
