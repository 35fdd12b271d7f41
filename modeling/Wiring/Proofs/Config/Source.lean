import Mathlib
import Wiring.Proofs.Config.Loading

/-! Where the settings of a loaded configuration come from. The source that is told is the first
place with anything there, and so is the place that is read. If a file stands there, the settings
are those of the file; if a directory stands there, there are none, and no further place is looked
at. -/
namespace Wiring.Config

variable {tree : FileTree} {environment : Environment} {explicit : Option String} {path : String}

end Wiring.Config
