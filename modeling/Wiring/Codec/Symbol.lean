import Wiring.Symbol
import Wiring.Json.Basic
/-! Written form of handles, members and locations. -/
namespace Wiring
open Decode

namespace TypeRef

def toJson (t : TypeRef) : Json := .obj [("id", .nat t.id.toNat), ("name", .str t.name)]

def decode? {ν : Type} [DocumentTree ν] (v : ν) : Option TypeRef := do
  let r ← record? ["id", "name"] v
  return ⟨← r.required "id" word32?, ← r.required "name" text?⟩

end TypeRef

namespace Accessibility

def alternatives : List (String × Accessibility) :=
  [("private", .privateAccess), ("protected", .protectedAccess), ("internal", .internalAccess),
   ("public", .publicAccess)]

def toJson (a : Accessibility) : Json := .str a.text

def decode? {ν : Type} [ValueTree ν] (v : ν) : Option Accessibility := oneOf alternatives v

end Accessibility

namespace Location

def toJson (l : Location) : Json :=
  .obj [("file", .str l.file), ("line", .nat l.line.toNat), ("column", .nat l.column.toNat)]

def decode? {ν : Type} [DocumentTree ν] (v : ν) : Option Location := do
  let r ← record? ["file", "line", "column"] v
  return ⟨← r.required "file" text?, ← r.required "line" word32?, ← r.required "column" word32?⟩

end Location

namespace MemberRef

def toJson : MemberRef → Json
  | .constructor owner ordinal =>
    .obj [("Constructor", .obj [("owner", owner.toJson), ("ordinal", .nat ordinal.toNat)])]
  | .property owner name =>
    .obj [("Property", .obj [("owner", owner.toJson), ("name", .str name)])]
  | .propertySetter owner name =>
    .obj [("PropertySetter", .obj [("owner", owner.toJson), ("name", .str name)])]

/-- The owner and name of a property. -/
def propertyFields? (members : List (String × Json)) : Option (TypeRef × String) := do
  let r ← Record.ofEntries? ["owner", "name"] members
  return (← r.required "owner" TypeRef.decode?, ← r.required "name" text?)

/-- The fields of a member stand under the name of its kind, never in an array. -/
def decode? (v : Json) : Option MemberRef :=
  match v.variant? with
  | some ("Constructor", .obj members) => do
    let r ← Record.ofEntries? ["owner", "ordinal"] members
    return .constructor (← r.required "owner" TypeRef.decode?) (← r.required "ordinal" word64?)
  | some ("Property", .obj members) =>
    (propertyFields? members).map fun (owner, name) => .property owner name
  | some ("PropertySetter", .obj members) =>
    (propertyFields? members).map fun (owner, name) => .propertySetter owner name
  | _ => none

end MemberRef

namespace Parameter

def toJson (p : Parameter) : Json :=
  .obj [("name", .str p.name), ("ty", p.type.toJson), ("location", .opt Location.toJson p.location)]

def decode? (v : Json) : Option Parameter := do
  let r ← record? ["name", "ty", "location"] v
  return ⟨← r.required "name" text?, ← r.required "ty" TypeRef.decode?,
    ← r.optional "location" Location.decode?⟩

end Parameter

namespace ConstructorCandidate

def toJson (c : ConstructorCandidate) : Json :=
  .obj [("member", c.member.toJson), ("parameters", .list Parameter.toJson c.parameters),
    ("is_static", .bool c.isStatic), ("is_synthesized", .bool c.isSynthesized),
    ("location", .opt Location.toJson c.location)]

def decode? (v : Json) : Option ConstructorCandidate := do
  let r ← record? ["member", "parameters", "is_static", "is_synthesized", "location"] v
  return {
    member := ← r.required "member" MemberRef.decode?
    parameters := ← r.required "parameters" (list Parameter.decode?)
    isStatic := ← r.required "is_static" flag?
    isSynthesized := ← r.required "is_synthesized" flag?
    location := ← r.optional "location" Location.decode? }

end ConstructorCandidate

namespace PropertyCandidate

def toJson (p : PropertyCandidate) : Json :=
  .obj [("owner", p.owner.toJson), ("name", .str p.name), ("ty", p.type.toJson),
    ("has_setter", .bool p.hasSetter), ("location", .opt Location.toJson p.location),
    ("setter_location", .opt Location.toJson p.setterLocation)]

def decode? (v : Json) : Option PropertyCandidate := do
  let r ← record? ["owner", "name", "ty", "has_setter", "location", "setter_location"] v
  return {
    owner := ← r.required "owner" TypeRef.decode?
    name := ← r.required "name" text?
    type := ← r.required "ty" TypeRef.decode?
    hasSetter := ← r.required "has_setter" flag?
    location := ← r.optional "location" Location.decode?
    setterLocation := ← r.optional "setter_location" Location.decode? }

end PropertyCandidate
end Wiring
