import Wiring.Codec.Config
import Wiring.Proofs.Decode.Record

/-! The written form of the configuration, in any format, and that it is read back as it was: every
field stands under its own name, and the one that is left out when there is nothing to say has
nothing for its default. -/
namespace Wiring
open Decode

variable {ν : Type} [ValueTree ν] (W : Writer ν)

namespace CycleDetection

theorem decode?_written (d : CycleDetection) : decode? (d.written W) = some d := by
  rw [decode?, oneOf, written, W.choice?_text]
  cases d <;> rfl

end CycleDetection

namespace WellKnownNames

theorem decode?_written (w : WellKnownNames) : decode? (w.written W) = some w := by
  simp [decode?, written, W.record?_of_sublist, W.text?_text]

end WellKnownNames

namespace AnalysisOptions

theorem decode?_written (o : AnalysisOptions) : decode? (o.written W) = some o := by
  simp [decode?, written, W.record?_of_sublist, W.text?_text,
    W.flag?_flag, CycleDetection.decode?_written, WellKnownNames.decode?_written]

end AnalysisOptions

namespace EmitOptions

theorem decode?_written (o : EmitOptions) : decode? (o.written W) = some o := by
  simp [decode?, written, W.record?_of_sublist, W.text?_text]

end EmitOptions

namespace LoggingConfig

theorem decode?_written (c : LoggingConfig) : decode? (c.written W) = some c := by
  obtain ⟨level, jsonFormat, fileOutput⟩ := c
  cases fileOutput with
  | none =>
    simp [decode?, written, W.record?_of_sublist, W.text?_text,
      W.flag?_flag]
  | some path =>
    simp [decode?, written, W.record?_of_sublist, W.text?_text,
      W.flag?_flag, nullable_of_absent?_eq (W.absent?_text path)]

end LoggingConfig

namespace ReportFormat

theorem decode?_written (f : ReportFormat) : decode? (f.written W) = some f := by
  rw [decode?, oneOf, written, W.choice?_text]
  cases f <;> rfl

end ReportFormat

namespace ReportConfig

theorem decode?_written (c : ReportConfig) : decode? (c.written W) = some c := by
  simp [decode?, written, W.record?_of_sublist, W.flag?_flag,
    ReportFormat.decode?_written]

end ReportConfig

namespace Config

/-- A written configuration is read back as it was. -/
theorem decode?_written (c : Config) : decode? (c.written W) = some c := by
  simp [decode?, written, W.record?_of_sublist,
    LoggingConfig.decode?_written, AnalysisOptions.decode?_written, EmitOptions.decode?_written,
    ReportConfig.decode?_written]

end Config
end Wiring
