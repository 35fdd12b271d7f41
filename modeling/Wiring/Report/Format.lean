import Wiring.Failure
import Wiring.Text.Lower
/-! The forms in which a report can be written. -/
namespace Wiring

inductive ReportFormat where
  | human | json
  deriving DecidableEq, Repr, Inhabited

namespace ReportFormat

def text : ReportFormat → String
  | .human => "human"
  | .json => "json"

/-- The format of a name in any case. The refusal shows the name in lower case. -/
def ofText (name : String) : Except Failure ReportFormat :=
  let lowered := Text.toLower name
  match [human, json].find? fun format => format.text == lowered with
  | some format => .ok format
  | none => .error (.unknownReportFormat lowered)

end ReportFormat
end Wiring
