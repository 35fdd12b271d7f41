import Wiring.Command.Log
import Wiring.Proofs.Files.Growth

/-! What the log does to files. Starting it may make directories, and creates the one file of the log
or leaves it; its lines go to that file and nowhere else. -/
namespace Wiring

namespace FileSystem

variable {tree after : FileTree} {path text : String}

theorem run_append_of_ok (h : tree.append path text = .ok after) :
    (append path text : StateM FileTree _).run tree = (.ok (), after) := run_change_of_ok h

theorem run_append_of_error {e : FileError} (h : tree.append path text = .error e) :
    (append path text : StateM FileTree _).run tree = (.error e, tree) := run_change_of_error h

end FileSystem

namespace RunLog

variable {log : RunLog} {logging : LoggingConfig} {place : LogPlace} {tree before after : FileTree}
variable {names : List String} {α β : Type}

/-- The file of the log is the one under some names. -/
def IsFile (log : RunLog) (logging : LoggingConfig) (tree : FileTree) (names : List String) : Prop :=
  ∃ place, logging.place? log.day = some place ∧ tree.locate place.path = .ok names

theorem IsFile.of_extends (h : log.IsFile logging before names)
    (hextends : after.Extends before) : log.IsFile logging after names := by
  obtain ⟨place, hplace, hlocate⟩ := h
  exact ⟨place, hplace, hextends.locate hlocate⟩

/-! Other files -/

/-- An action that makes directories and changes no file but that of the log. -/
def Keeping (log : RunLog) (logging : LoggingConfig) (action : StateM FileTree α) : Prop :=
  ∀ tree, (action.run tree).2.Grown tree (log.IsFile logging (action.run tree).2)

theorem Keeping.pure (a : α) : log.Keeping logging (pure a : StateM FileTree α) :=
  fun tree => FileTree.Grown.refl tree _

theorem Keeping.bind {action : StateM FileTree α} {next : α → StateM FileTree β}
    (h : log.Keeping logging action) (h' : ∀ a, log.Keeping logging (next a)) :
    log.Keeping logging (action >>= next) := by
  intro tree
  -- a file of the log after the first action is still one after the second
  have hnext := h' (action.run tree).1 (action.run tree).2
  exact hnext.trans ((h tree).mono fun names hnames => hnames.of_extends hnext.toExtends)

theorem keeping_append (hplace : logging.place? log.day = some place) (text : String) :
    log.Keeping logging (FileSystem.append place.path text) := by
  intro tree
  cases happend : tree.append place.path text with
  | ok after =>
    rw [FileSystem.run_append_of_ok happend]
    exact (FileTree.grown_append happend).1.mono fun names hnames => ⟨place, hplace, hnames⟩
  | error e =>
    rw [FileSystem.run_append_of_error happend]
    exact FileTree.Grown.refl tree _

theorem keeping_createDirectories (path : String) :
    log.Keeping logging (FileSystem.createDirectories path) :=
  fun tree => FileTree.grown_createDirectories tree path _

theorem keeping_openFile (hplace : logging.place? log.day = some place) :
    log.Keeping logging (openFile place) := by
  refine (keeping_append hplace "").bind fun result => ?_
  cases result with
  | ok => exact .pure _
  | error =>
    refine (keeping_createDirectories place.directory).bind fun made => ?_
    cases made with
    | ok => exact keeping_append hplace ""
    | error => exact .pure _

theorem keeping_openPlace : log.Keeping logging (log.openPlace logging) := by
  unfold openPlace
  cases hplace : logging.place? log.day with
  | none => exact .pure _
  | some place => exact keeping_openFile hplace

theorem keeping_add (lines : LogLines) : log.Keeping logging (log.add logging lines) := by
  unfold add
  cases hplace : logging.place? log.day with
  | none => exact .pure _
  | some place => exact (keeping_append hplace lines.inFile).bind fun _ => .pure _

/-- Starting the log changes no other file, also where it fails. -/
theorem keeping_start : log.Keeping logging (log.start logging) := by
  unfold start
  cases LogLevel.ofText logging.level with
  | error failure => exact .pure _
  | ok level =>
    refine keeping_openPlace.bind fun opened => ?_
    cases opened with
    | error e => exact .pure _
    | ok =>
      dsimp only
      cases log.refusal with
      | some cause => exact .pure _
      | none => exact (keeping_add log.opening).bind fun _ => .pure _

/-- Without a file for the log, starting it changes nothing. -/
theorem run_start_of_no_file (hfile : logging.fileOutput = none) :
    ((log.start logging : StateM FileTree _).run tree).2 = tree := by
  have hplace : logging.place? log.day = none := by
    rw [LoggingConfig.place?, hfile, Option.map_none]
  unfold start
  cases LogLevel.ofText logging.level with
  | error failure => rfl
  | ok level =>
    unfold openPlace add
    rw [hplace]
    dsimp only
    rw [FileSystem.run_bind]
    cases log.refusal <;> rfl

/-! The file of the log -/

/-- If the log has a file, it is there. -/
def IsOpen (log : RunLog) (logging : LoggingConfig) (tree : FileTree) : Prop :=
  ∀ place, logging.place? log.day = some place → tree.isFile place.path = true

/-- The command adds no lines to the file under some names: the log has another, or adds none. -/
def Spares (log : RunLog) (logging : LoggingConfig) (tree : FileTree) (names : List String) : Prop :=
  log.IsFile logging tree names →
    log.analysis.inFile = "" ∧ log.rendering.inFile = "" ∧ log.completion.inFile = ""

theorem IsFile.of_isOpen (h : log.IsFile logging after names) (hopen : log.IsOpen logging before)
    (hextends : after.Extends before) : log.IsFile logging before names := by
  obtain ⟨place, hplace, hlocate⟩ := h
  obtain ⟨_, hread⟩ := FileTree.isFile_iff.mp (hopen place hplace)
  obtain ⟨there, hthere, _⟩ := FileTree.read_eq_ok_iff.mp hread
  obtain rfl := Except.ok.inj ((hextends.locate hthere).symm.trans hlocate)
  exact ⟨place, hplace, hthere⟩

theorem Spares.of_extends (h : log.Spares logging before names) (hopen : log.IsOpen logging before)
    (hextends : after.Extends before) : log.Spares logging after names :=
  fun hfile => h (hfile.of_isOpen hopen hextends)

theorem isFile_of_run_append {path text : String}
    (h : ((FileSystem.append path text : StateM FileTree _).run tree).1 = .ok ()) :
    ((FileSystem.append path text : StateM FileTree _).run tree).2.isFile path = true := by
  cases happend : tree.append path text with
  | ok after =>
    rw [FileSystem.run_append_of_ok happend]
    exact (FileTree.grown_append happend).2
  | error e =>
    rw [FileSystem.run_append_of_error happend] at h
    exact nomatch h

theorem isFile_of_run_openFile
    (h : ((openFile place : StateM FileTree _).run tree).1 = .ok ()) :
    ((openFile place : StateM FileTree _).run tree).2.isFile place.path = true := by
  unfold openFile at h ⊢
  rw [FileSystem.run_bind] at h ⊢
  cases happend : ((FileSystem.append place.path "" : StateM FileTree _).run tree).1 with
  | ok =>
    rw [happend] at h
    exact isFile_of_run_append happend
  | error e =>
    rw [happend] at h
    dsimp only at h ⊢
    rw [FileSystem.run_bind] at h ⊢
    split at h
    · exact nomatch h
    · exact isFile_of_run_append h

theorem isOpen_of_openPlace (h : ((log.openPlace logging : StateM FileTree _).run tree).1 = .ok ()) :
    log.IsOpen logging ((log.openPlace logging : StateM FileTree _).run tree).2 := by
  intro place hplace
  unfold openPlace at h ⊢
  rw [hplace] at h ⊢
  exact isFile_of_run_openFile h

/-- Lines are added to the file that is there. -/
theorem run_add_of_isOpen (hopen : log.IsOpen logging tree)
    (hplace : logging.place? log.day = some place) (lines : LogLines) :
    ∃ there old, tree.locate place.path = .ok there ∧ tree.entry? there = some (.file old) ∧
      (log.add logging lines : StateM FileTree _).run tree =
        ((), tree.put there (.file (old ++ lines.inFile.toUTF8))) := by
  obtain ⟨old, hread⟩ := FileTree.isFile_iff.mp (hopen place hplace)
  obtain ⟨there, hlocate, hfile⟩ := FileTree.read_eq_ok_iff.mp hread
  have happend := FileTree.append_of_target (FileTree.target_of_file hlocate hfile) lines.inFile
  rw [FileTree.contentAt, hfile] at happend
  refine ⟨there, old, hlocate, hfile, ?_⟩
  unfold add
  rw [hplace]
  dsimp only
  rw [FileSystem.run_bind, FileSystem.run_append_of_ok happend]
  rfl

theorem IsOpen.add (hopen : log.IsOpen logging tree) (lines : LogLines) :
    log.IsOpen logging ((log.add logging lines : StateM FileTree _).run tree).2 := by
  intro place hplace
  obtain ⟨there, old, hlocate, hfile, hrun⟩ := run_add_of_isOpen hopen hplace lines
  rw [hrun]
  exact FileTree.isFile_iff.mpr
    ⟨_, FileTree.read_put_of_target (FileTree.target_of_file hlocate hfile) _⟩

/-- A log that has been started has its file. -/
theorem isOpen_of_start (h : ((log.start logging : StateM FileTree _).run tree).1 = .ok ()) :
    log.IsOpen logging ((log.start logging : StateM FileTree _).run tree).2 := by
  unfold start at h ⊢
  cases hlevel : LogLevel.ofText logging.level with
  | error failure =>
    rw [hlevel] at h
    exact nomatch h
  | ok level =>
    rw [hlevel] at h
    dsimp only at h ⊢
    rw [FileSystem.run_bind] at h ⊢
    cases hplace : ((log.openPlace logging : StateM FileTree _).run tree).1 with
    | error e =>
      rw [hplace] at h
      exact nomatch h
    | ok =>
      rw [hplace] at h
      have hopen := isOpen_of_openPlace hplace
      cases hrefusal : log.refusal with
      | some cause =>
        rw [hrefusal] at h
        exact nomatch h
      | none => exact hopen.add log.opening

/-- Lines leave a file as it is that is not that of the log, or if there are none. -/
theorem entry?_add {lines : LogLines} {content : ByteArray} (hopen : log.IsOpen logging tree)
    (hentry : tree.entry? names = some (.file content))
    (hlines : log.IsFile logging tree names → lines.inFile = "") :
    FileTree.entry? ((log.add logging lines : StateM FileTree _).run tree).2 names =
      some (.file content) := by
  cases hplace : logging.place? log.day with
  | none =>
    unfold add
    rw [hplace]
    exact hentry
  | some place =>
    obtain ⟨there, old, hlocate, hfile, hrun⟩ := run_add_of_isOpen hopen hplace lines
    rw [hrun]
    dsimp only
    -- lines may go to the file itself only if they are none
    by_cases hthere : names = there
    · subst hthere
      have hnone : lines.inFile = "" := hlines ⟨place, hplace, hlocate⟩
      obtain rfl : old = content := by simpa [hfile] using hentry
      have hne : names ≠ [] := by
        rintro rfl
        exact nomatch hentry
      have hempty : old ++ "".toUTF8 = old := ByteArray.append_empty
      rw [hnone, hempty, FileTree.entry?_put_self hne]
    · rw [FileTree.entry?_put_of_ne hthere, hentry]

end RunLog
end Wiring
