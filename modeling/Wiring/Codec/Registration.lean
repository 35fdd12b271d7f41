import Wiring.Registration
import Wiring.Codec.Symbol
/-! Written form of dependencies and registrations. -/
namespace Wiring
open Decode

namespace DependencyKind

def alternatives : List (String × (TypeRef → DependencyKind)) :=
  [("plain", .plain), ("deferred", .deferred), ("collection_of", .collectionOf)]

def tag : DependencyKind → String
  | .plain _ => "plain"
  | .deferred _ => "deferred"
  | .collectionOf _ => "collection_of"

def toJson (k : DependencyKind) : Json := .obj [("kind", .str k.tag), ("type", k.target.toJson)]

/-- The kind stands beside the type it applies to. -/
def decode? (v : Json) : Option DependencyKind := do
  let r ← record? ["kind", "type"] v
  let make ← r.required "kind" (oneOf alternatives)
  return make (← r.required "type" TypeRef.decode?)

end DependencyKind

namespace Dependency

def toJson (d : Dependency) : Json :=
  .obj [("name", .str d.name), ("kind", d.kind.toJson),
    ("location", .opt Location.toJson d.location)]

def decode? (v : Json) : Option Dependency := do
  let r ← record? ["name", "kind", "location"] v
  return ⟨← r.required "name" text?, ← r.required "kind" DependencyKind.decode?,
    ← r.optional "location" Location.decode?⟩

end Dependency

namespace RegistrationKind

def toJson : RegistrationKind → Json
  | .transient => .obj [("kind", .str "transient")]
  | .lazySingleton mode => .obj [("kind", .str "lazy_singleton"), ("mode", .opt .str mode)]
  | .constant => .obj [("kind", .str "constant")]

/-- The mode among the fields of a lazy singleton. -/
def modeField? (r : Record Loose) : Option (Option String) :=
  match r.find? "mode" with
  | some v => v.nullableText?
  | none => if r.positional then none else some none

def decode? (v : Json) : Option RegistrationKind := do
  let t ← tagged? "kind" v
  match t.tag with
  | "transient" => if t.body.isUnit then some .transient else none
  | "constant" => if t.body.isUnit then some .constant else none
  | "lazy_singleton" => return .lazySingleton (← modeField? (← t.body.record? ["mode"]))
  | _ => none

end RegistrationKind

namespace RegistrationRecord

def toJson (r : RegistrationRecord) : Json :=
  .obj [("interface", r.interface.toJson), ("concrete", r.concrete.toJson),
    ("constructor_dependencies", .list Dependency.toJson r.constructorDependencies),
    ("property_dependencies", .list Dependency.toJson r.propertyDependencies),
    ("contract", .opt .str r.contract), ("kind", r.kind.toJson), ("location", r.location.toJson)]

def decode? (v : Json) : Option RegistrationRecord := do
  let r ← record? ["interface", "concrete", "constructor_dependencies", "property_dependencies",
    "contract", "kind", "location"] v
  return {
    interface := ← r.required "interface" TypeRef.decode?
    concrete := ← r.required "concrete" TypeRef.decode?
    constructorDependencies := ← r.required "constructor_dependencies" (list Dependency.decode?)
    propertyDependencies := ← r.required "property_dependencies" (list Dependency.decode?)
    contract := ← r.optional "contract" text?
    kind := ← r.required "kind" RegistrationKind.decode?
    location := ← r.required "location" Location.decode? }

end RegistrationRecord
end Wiring
