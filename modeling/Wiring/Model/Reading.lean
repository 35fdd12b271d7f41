import Wiring.Codec.Document
import Wiring.Failure
import Wiring.Json.Reader
import Wiring.Yaml.Decode
/-! Model documents as text. -/
namespace Wiring.ModelDocument

/-- The document of a text in JSON. -/
def ofJson? (text : String) : Option ModelDocument := (Json.parse? text).bind decode?

/-- The document of a text in YAML. A text that holds no node is the empty document. -/
def ofYaml? (text : String) : Option ModelDocument :=
  (Yaml.Node.parse? text).bind fun node =>
    match node with
    | some node => decode? node
    | none => some {}

/-- The document of a text in the given format. -/
def ofText (format : DocumentFormat) (text : String) : Except Failure ModelDocument :=
  let document? := match format with
    | .json => ofJson? text
    | .yaml => ofYaml? text
  match document? with
  | some document => .ok document
  | none => .error (.malformedDocument format)

end Wiring.ModelDocument
