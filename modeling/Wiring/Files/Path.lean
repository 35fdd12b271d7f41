import Wiring.Failure
import Wiring.Text.Lower
import Wiring.Text.Pieces
/-! Paths as texts: names with slashes between them. -/
namespace Wiring.Path

/-- The names of a path, without the empty ones and those that stand for the directory itself. -/
def names (path : String) : List String :=
  (Text.splitString '/' path).filter fun name => name != "" && name != "."

/-- What follows the last point of a name. A name that only starts with a point has none. -/
def nameExtension? (name : String) : Option String :=
  let fromEnd := (Text.pieces '.' name.toList).reverse
  match fromEnd with
  | last :: before :: others =>
    if others.isEmpty && before.isEmpty then none else some (String.ofList last)
  | _ => none

/-- A name without its extension. -/
def nameStem (name : String) : String :=
  match nameExtension? name with
  | some extension => String.ofList (name.toList.take (name.length - (extension.length + 1)))
  | none => name

/-- The last name of a path, unless it leads upwards. -/
def lastName? (path : String) : Option String :=
  match (names path).getLast? with
  | some name => if name == ".." then none else some name
  | none => none

/-- The extension of the last name of a path. -/
def extension? (path : String) : Option String := (lastName? path).bind nameExtension?

/-- The last name of a path without its extension. -/
def stem? (path : String) : Option String := (lastName? path).map nameStem

/-- The path of the directory that the last name of a path stands in. -/
def directory (path : String) : String :=
  let above := String.intercalate "/" (names path).dropLast
  if (names path).isEmpty then "."
  else if path.toList.head? == some '/' then "/" ++ above
  else if above.isEmpty then "."
  else above

/-- The extensions of model files. -/
def modelExtensions : List (String × DocumentFormat) :=
  [("json", .json), ("yaml", .yaml), ("yml", .yaml)]

end Wiring.Path

namespace Wiring.DocumentFormat

/-- The format that the extension of a path tells, in any case. -/
def ofPath (path : String) : Except Failure DocumentFormat :=
  match (Path.extension? path).bind fun e => Path.modelExtensions.lookup (Text.toLower e) with
  | some format => .ok format
  | none => .error (.unsupportedModelFile path)

end Wiring.DocumentFormat
