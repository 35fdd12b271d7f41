import Wiring.Invocation
import Wiring.Codec.Symbol
/-! Written form of call sites. -/
namespace Wiring
open Decode

namespace MethodBinding

def toJson (b : MethodBinding) : Json :=
  .obj [("containing_type", .str b.containingType), ("is_extension", .bool b.isExtension),
    ("parameters", .list .str b.parameters)]

def decode? {ν : Type} [DocumentTree ν] (v : ν) : Option MethodBinding := do
  let r ← record? ["containing_type", "is_extension", "parameters"] v
  return ⟨← r.required "containing_type" text?, ← r.withDefault "is_extension" false flag?,
    ← r.withDefault "parameters" [] (list text?)⟩

end MethodBinding

namespace ExpressionBinding

def toJson : ExpressionBinding → Json
  | .literal => .obj [("kind", .str "literal")]
  | .member name => .obj [("kind", .str "member"), ("qualified_name", .str name)]
  | .symbol name => .obj [("kind", .str "symbol"), ("qualified_name", .str name)]
  | .unresolved => .obj [("kind", .str "unresolved")]

/-- The name a binding resolved to. -/
def nameField? (body : TaggedBody) : Option String :=
  (body.record? ["qualified_name"]).bind fun r => r.required "qualified_name" Loose.text?

def decode? {ν : Type} [DocumentTree ν] (v : ν) : Option ExpressionBinding := do
  let t ← tagged? "kind" v
  match t.tag with
  | "literal" => if t.body.isUnit then some .literal else none
  | "member" => (nameField? t.body).map .member
  | "symbol" => (nameField? t.body).map .symbol
  | "unresolved" => if t.body.isUnit then some .unresolved else none
  | _ => none

end ExpressionBinding

namespace Expression

def toJson (e : Expression) : Json :=
  .obj [("text", .str e.text), ("binding", e.binding.toJson)]

def decode? (v : Json) : Option Expression := do
  let r ← record? ["text", "binding"] v
  return ⟨← r.required "text" text?, ← r.required "binding" ExpressionBinding.decode?⟩

end Expression

namespace Argument

def toJson (a : Argument) : Json :=
  .obj [("name", .opt .str a.name), ("expression", a.expression.toJson)]

def decode? (v : Json) : Option Argument := do
  let r ← record? ["name", "expression"] v
  return ⟨← r.optional "name" text?, ← r.required "expression" Expression.decode?⟩

end Argument

namespace InvocationSite

def toJson (s : InvocationSite) : Json :=
  .obj [("method_name", .str s.methodName),
    ("type_arguments", .list TypeRef.toJson s.typeArguments),
    ("arguments", .list Argument.toJson s.arguments), ("location", s.location.toJson),
    ("binding", .opt MethodBinding.toJson s.binding)]

def decode? (v : Json) : Option InvocationSite := do
  let r ← record? ["method_name", "type_arguments", "arguments", "location", "binding"] v
  return {
    methodName := ← r.required "method_name" text?
    typeArguments := ← r.required "type_arguments" (list TypeRef.decode?)
    arguments := ← r.required "arguments" (list Argument.decode?)
    location := ← r.required "location" Location.decode?
    binding := ← r.optional "binding" MethodBinding.decode? }

end InvocationSite
end Wiring
