import Wiring.Files.Path
import Wiring.Files.System
import Wiring.Model.Arena
import Wiring.Model.Reading
/-! Model documents in files. -/
namespace Wiring

variable {m : Type → Type} [Monad m] [FileSystem m]

/-- The document in a file, in the format that its extension tells. -/
def ModelDocument.read (path : String) : m (Except Failure ModelDocument) := do
  match DocumentFormat.ofPath path with
  | .error failure => return .error failure
  | .ok format =>
    match ← FileSystem.readText path with
    | .ok text => return ofText format text
    | .error cause => return .error (.unreadableModel path cause)

end Wiring
