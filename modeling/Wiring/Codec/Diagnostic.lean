import Wiring.Diagnostic
import Wiring.Codec.Symbol
/-! Written form of diagnostics: flattened as in reports, and by problem. -/
namespace Wiring
open Decode

namespace Severity

def alternatives : List (String × Severity) := [("Warning", .warning), ("Error", .error)]

def toJson (s : Severity) : Json := .str s.name

def decode? (v : Json) : Option Severity := oneOf alternatives v

end Severity

/-- The name of the problem and its details. -/
def Problem.fields : Problem → String × List (String × String)
  | .noValidConstructor typeName => ("NoValidConstructor", [("type_name", typeName)])
  | .propertyMustBeSettable property => ("PropertyMustBeSettable", [("property", property)])
  | .multipleConstructorsMarked typeName =>
    ("MultipleConstructorsMarked", [("type_name", typeName)])
  | .constructorsMustBePublic typeName => ("ConstructorsMustBePublic", [("type_name", typeName)])
  | .circularDependency typeName cycle =>
    ("ConstructorsMustNotHaveCircularDependency", [("type_name", typeName), ("cycle", cycle)])
  | .interfaceRegisteredMultipleTimes interface =>
    ("InterfaceRegisteredMultipleTimes", [("interface", interface)])
  | .lazyParameterNotRegisteredLazy typeName parameter target =>
    ("LazyParameterNotRegisteredLazy",
      [("type_name", typeName), ("parameter", parameter), ("target", target)])

namespace Diagnostic

/-- A diagnostic with its texts, as an entry of a report. -/
def entryJson (d : Diagnostic) : Json :=
  .obj [("id", .str d.id), ("severity", d.severity.toJson), ("title", .str d.title),
    ("message", .str d.message), ("location", d.location.toJson)]

/-- A diagnostic as its problem. -/
def toJson (d : Diagnostic) : Json :=
  let (name, details) := d.problem.fields
  .obj [(name, .obj (details.map (fun (key, text) => (key, .str text))
    ++ [("location", d.location.toJson)]))]

end Diagnostic
end Wiring
