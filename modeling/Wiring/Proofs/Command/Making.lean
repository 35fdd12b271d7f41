import Wiring.Proofs.Command.Log
import Wiring.Proofs.Command.LogName
import Wiring.Proofs.Command.Verdict

/-! What `generate` makes of the model at a path. It depends on what is read there and on nothing else
in the file system, and not on the log: the file of the log never has the name of a model. -/
namespace Wiring

variable {tree tree' : FileTree} {path : String}

namespace ModelDocument

/-- Reading a document depends on the content at its path alone. -/
theorem run_read_congr (h : tree.read path = tree'.read path) :
    ((ModelDocument.read path : StateM FileTree _).run tree).1 =
      ((ModelDocument.read path : StateM FileTree _).run tree').1 := by
  unfold ModelDocument.read
  cases DocumentFormat.ofPath path with
  | error failure => rfl
  | ok format =>
    dsimp only
    rw [StateT.run_bind, StateT.run_bind, FileSystem.run_readText, FileSystem.run_readText, h]
    cases (tree'.read path).bind FileSystem.decodeText <;> rfl

/-- A path without the extension of a model is not read. -/
theorem run_read_of_ofPath_error {failure : Failure}
    (h : DocumentFormat.ofPath path = .error failure) (tree : FileTree) :
    (ModelDocument.read path : StateM FileTree _).run tree = (.error failure, tree) := by
  unfold ModelDocument.read
  rw [h]
  rfl

theorem exists_content_of_run_read {document : ModelDocument}
    (h : ((ModelDocument.read path : StateM FileTree _).run tree).1 = .ok document) :
    ∃ content, tree.read path = .ok content := by
  unfold ModelDocument.read at h
  cases hformat : DocumentFormat.ofPath path with
  | error failure =>
    rw [hformat] at h
    exact nomatch h
  | ok format =>
    rw [hformat] at h
    dsimp only at h
    rw [StateT.run_bind, FileSystem.run_readText] at h
    cases hread : tree.read path with
    | ok content => exact ⟨content, rfl⟩
    | error cause =>
      rw [hread] at h
      exact nomatch h

end ModelDocument

namespace Command

variable (config : Config)

theorem run_runGenerate_eq (tree : FileTree) (path : String) :
    (runGenerate config path : StateM FileTree _).run tree =
      ((((((ModelDocument.read path : StateM FileTree _).run tree).1.bind config.analyze).mapError
        (.model path)).map config.generateOutcome), tree) := by
  have hread : (ModelDocument.read path : StateM FileTree _).run tree =
      (((ModelDocument.read path : StateM FileTree _).run tree).1, tree) :=
    Prod.ext rfl (ModelDocument.run_read_snd tree path)
  unfold runGenerate analyzeModel
  rw [StateT.run_bind, StateT.run_bind, hread]
  rfl

/-- What `generate` makes of the model at a path, or why it makes nothing. -/
def generated (tree : FileTree) (path : String) : Except CommandFailure Generated :=
  ((runGenerate config path : StateM FileTree _).run tree).1

theorem run_runGenerate_generated (tree : FileTree) (path : String) :
    (runGenerate config path : StateM FileTree _).run tree =
      (generated config tree path, tree) := by
  rw [generated, run_runGenerate_eq]

theorem generated_congr (h : tree.read path = tree'.read path) :
    generated config tree path = generated config tree' path := by
  rw [generated, generated, run_runGenerate_eq, run_runGenerate_eq, ModelDocument.run_read_congr h]

theorem exists_content_of_generated {g : Generated} (h : generated config tree path = .ok g) :
    ∃ content, tree.read path = .ok content := by
  rw [generated, run_runGenerate_eq] at h
  cases hread : ((ModelDocument.read path : StateM FileTree _).run tree).1 with
  | ok document => exact ModelDocument.exists_content_of_run_read hread
  | error failure =>
    rw [hread] at h
    exact nomatch h

/-- Where the same contents can be read at a path, the same is made of the model there. -/
theorem generated_eq_ok_iff
    (h : ∀ content, tree.read path = .ok content ↔ tree'.read path = .ok content) (g : Generated) :
    generated config tree path = .ok g ↔ generated config tree' path = .ok g := by
  constructor
  · intro hgenerated
    obtain ⟨content, hread⟩ := exists_content_of_generated config hgenerated
    rwa [generated_congr config (hread.trans ((h content).mp hread).symm)] at hgenerated
  · intro hgenerated
    obtain ⟨content, hread⟩ := exists_content_of_generated config hgenerated
    rwa [generated_congr config (hread.trans ((h content).mpr hread).symm)] at hgenerated

/-- Starting the log changes nothing about the model at a path that leads somewhere before. -/
theorem generated_of_start {log : RunLog} {logging : LoggingConfig} {names : List String}
    (hlocate : tree.locate path = .ok names) :
    generated config ((log.start logging : StateM FileTree _).run tree).2 path =
      generated config tree path := by
  have hkeeping : log.Keeping logging (log.start logging) := RunLog.keeping_start
  have hgrown := hkeeping tree
  generalize ((log.start logging : StateM FileTree _).run tree).2 = opened at hgrown ⊢
  have hopened := hgrown.toExtends.locate hlocate
  cases hformat : DocumentFormat.ofPath path with
  | error failure =>
    rw [generated, generated, run_runGenerate_eq, run_runGenerate_eq,
      ModelDocument.run_read_of_ofPath_error hformat, ModelDocument.run_read_of_ofPath_error hformat]
  | ok format =>
    -- the file of the log has another name than a model can have
    have hother : ¬ log.IsFile logging opened names := by
      rintro ⟨place, hplace, hlog⟩
      exact LoggingConfig.ne_of_locate hplace hformat hopened hlog
    exact generated_congr config (hgrown.read_eq hlocate hother)

end Command
end Wiring
