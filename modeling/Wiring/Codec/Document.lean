import Wiring.Model.Document
import Wiring.Codec.Invocation
/-! Written form of model documents. The decoders read any document format. -/
namespace Wiring
open Decode

namespace ParameterDecl

def toJson (p : ParameterDecl) : Json :=
  .obj [("name", .str p.name), ("type", .str p.type), ("location", .opt Location.toJson p.location)]

def decode? {ν : Type} [DocumentTree ν] (v : ν) : Option ParameterDecl := do
  let r ← record? ["name", "type", "location"] v
  return ⟨← r.required "name" text?, ← r.required "type" text?,
    ← r.withDefault "location" none (nullable Location.decode?)⟩

end ParameterDecl

namespace ConstructorDecl

def toJson (c : ConstructorDecl) : Json :=
  .obj [("accessibility", c.accessibility.toJson), ("is_static", .bool c.isStatic),
    ("is_synthesized", .bool c.isSynthesized), ("attributes", .list .str c.attributes),
    ("parameters", .list ParameterDecl.toJson c.parameters),
    ("location", .opt Location.toJson c.location)]

def decode? {ν : Type} [DocumentTree ν] (v : ν) : Option ConstructorDecl := do
  let r ← record?
    ["accessibility", "is_static", "is_synthesized", "attributes", "parameters", "location"] v
  return {
    accessibility := ← r.withDefault "accessibility" .publicAccess Accessibility.decode?
    isStatic := ← r.withDefault "is_static" false flag?
    isSynthesized := ← r.withDefault "is_synthesized" false flag?
    attributes := ← r.withDefault "attributes" [] (list text?)
    parameters := ← r.withDefault "parameters" [] (list ParameterDecl.decode?)
    location := ← r.withDefault "location" none (nullable Location.decode?) }

end ConstructorDecl

namespace PropertyDecl

def toJson (p : PropertyDecl) : Json :=
  .obj [("name", .str p.name), ("type", .str p.type), ("accessibility", p.accessibility.toJson),
    ("attributes", .list .str p.attributes), ("setter", .opt Accessibility.toJson p.setter),
    ("location", .opt Location.toJson p.location),
    ("setter_location", .opt Location.toJson p.setterLocation)]

def decode? {ν : Type} [DocumentTree ν] (v : ν) : Option PropertyDecl := do
  let r ← record? ["name", "type", "accessibility", "attributes", "setter", "location",
    "setter_location"] v
  return {
    name := ← r.required "name" text?
    type := ← r.required "type" text?
    accessibility := ← r.withDefault "accessibility" .publicAccess Accessibility.decode?
    attributes := ← r.withDefault "attributes" [] (list text?)
    setter := ← r.withDefault "setter" none (nullable Accessibility.decode?)
    location := ← r.withDefault "location" none (nullable Location.decode?)
    setterLocation := ← r.withDefault "setter_location" none (nullable Location.decode?) }

end PropertyDecl

namespace TypeDecl

def toJson (t : TypeDecl) : Json :=
  .obj [("name", .str t.name), ("base", .opt .str t.base), ("definition", .opt .str t.definition),
    ("type_arguments", .list .str t.typeArguments),
    ("constructors", .list ConstructorDecl.toJson t.constructors),
    ("properties", .list PropertyDecl.toJson t.properties)]

def decode? {ν : Type} [DocumentTree ν] (v : ν) : Option TypeDecl := do
  let r ← record? ["name", "base", "definition", "type_arguments", "constructors", "properties"] v
  return {
    name := ← r.withDefault "name" "" text?
    base := ← r.withDefault "base" none (nullable text?)
    definition := ← r.withDefault "definition" none (nullable text?)
    typeArguments := ← r.withDefault "type_arguments" [] (list text?)
    constructors := ← r.withDefault "constructors" [] (list ConstructorDecl.decode?)
    properties := ← r.withDefault "properties" [] (list PropertyDecl.decode?) }

end TypeDecl

namespace ArgumentDecl

def toJson (a : ArgumentDecl) : Json :=
  .obj [("name", .opt .str a.name), ("text", .str a.text), ("binding", a.binding.toJson)]

def decode? {ν : Type} [DocumentTree ν] (v : ν) : Option ArgumentDecl := do
  let r ← record? ["name", "text", "binding"] v
  return {
    name := ← r.withDefault "name" none (nullable text?)
    text := ← r.required "text" text?
    binding := ← r.withDefault "binding" .literal ExpressionBinding.decode? }

end ArgumentDecl

namespace InvocationDecl

def toJson (d : InvocationDecl) : Json :=
  .obj [("method", .str d.method), ("type_arguments", .list .str d.typeArguments),
    ("arguments", .list ArgumentDecl.toJson d.arguments), ("location", d.location.toJson),
    ("binding", .opt MethodBinding.toJson d.binding)]

def decode? {ν : Type} [DocumentTree ν] (v : ν) : Option InvocationDecl := do
  let r ← record? ["method", "type_arguments", "arguments", "location", "binding"] v
  return {
    method := ← r.required "method" text?
    typeArguments := ← r.withDefault "type_arguments" [] (list text?)
    arguments := ← r.withDefault "arguments" [] (list ArgumentDecl.decode?)
    location := ← r.required "location" Location.decode?
    binding := ← r.withDefault "binding" none (nullable MethodBinding.decode?) }

end InvocationDecl

namespace ModelDocument

def toJson (d : ModelDocument) : Json :=
  .obj [("references", .list .str d.references), ("types", .list TypeDecl.toJson d.types),
    ("invocations", .list InvocationDecl.toJson d.invocations)]

def decode? {ν : Type} [DocumentTree ν] (v : ν) : Option ModelDocument := do
  let r ← record? ["references", "types", "invocations"] v
  return {
    references := ← r.withDefault "references" [] (list text?)
    types := ← r.withDefault "types" [] (list TypeDecl.decode?)
    invocations := ← r.withDefault "invocations" [] (list InvocationDecl.decode?) }

end ModelDocument
end Wiring
