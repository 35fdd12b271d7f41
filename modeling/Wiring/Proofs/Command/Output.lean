import Wiring.Proofs.Command.Making
import Wiring.Proofs.Config.Loading

/-! What `generate` leaves in its output file. The file is emptied, or created empty, before the
model is read: it is untouched only by a failure that comes before, it stays empty when there is no
code to be made, and else it holds the code. The model is read with the output file in place, which
matters only to a path that leads to the output file itself, and the log matters only if it writes to
that file or makes a directory on the way to the model. -/
namespace Wiring

variable {tree : FileTree} {path : String}

namespace Command

section Writing

variable {log : RunLog} {model output : String} {names : List String}

/-- The tree with an empty file in place of the output. -/
def emptied (tree : FileTree) (names : List String) : FileTree := tree.put names (.file "".toUTF8)

theorem run_write_nothing (htarget : tree.target output = .ok names) :
    (FileSystem.write output "" : StateM FileTree _).run tree = (.ok (), emptied tree names) :=
  FileSystem.run_write_of_ok (FileTree.write_of_target htarget "")

/-- The output file holds some bytes, and the log will leave them there. -/
structure Holds (log : RunLog) (config : Config) (tree : FileTree) (output : String)
    (names : List String) (content : ByteArray) : Prop where
  isOpen : log.IsOpen config.logging tree
  spares : log.Spares config.logging tree names
  located : tree.locate output = .ok names
  entry : tree.entry? names = some (.file content)

variable {config : Config} {content : ByteArray}

theorem Holds.read (h : Holds log config tree output names content) :
    tree.read output = .ok content :=
  FileTree.read_eq_ok_iff.mpr ⟨names, h.located, h.entry⟩

theorem Holds.add (h : Holds log config tree output names content) (lines : LogLines)
    (hlines : log.IsFile config.logging tree names → lines.inFile = "") :
    Holds log config ((log.add config.logging lines : StateM FileTree _).run tree).2 output names
      content := by
  have hkeeping : log.Keeping config.logging (log.add config.logging lines) :=
    RunLog.keeping_add lines
  have hextends := (hkeeping tree).toExtends
  exact ⟨h.isOpen.add lines, h.spares.of_extends h.isOpen hextends, hextends.locate h.located,
    RunLog.entry?_add h.isOpen h.entry hlines⟩

/-- A file that has been written holds what was written. -/
theorem holds_put (hopen : log.IsOpen config.logging tree)
    (hspares : log.Spares config.logging tree names) (htarget : tree.target output = .ok names)
    (content : ByteArray) :
    Holds log config (tree.put names (.file content)) output names content := by
  have hdirectory := FileTree.entry?_ne_directory_of_target htarget
  obtain ⟨hne, hlocate⟩ := FileTree.locate_put_of_target htarget content
  exact ⟨fun place hplace => FileTree.isFile_put hdirectory _ (hopen place hplace),
    hspares.of_extends hopen (FileTree.extends_put hdirectory _), hlocate,
    FileTree.entry?_put_self hne _⟩

theorem holds_emptied (hopen : log.IsOpen config.logging tree)
    (hspares : log.Spares config.logging tree names) (htarget : tree.target output = .ok names) :
    Holds log config (emptied tree names) output names "".toUTF8 :=
  holds_put hopen hspares htarget _

/-- Code that is written over nothing is all that the file holds. -/
theorem Holds.overwrite (h : Holds log config tree output names "".toUTF8) (code : String) :
    ∃ after, (FileSystem.overwrite output code : StateM FileTree _).run tree = (.ok (), after) ∧
      Holds log config after output names code.toUTF8 := by
  have htarget := FileTree.target_of_file h.located h.entry
  exact ⟨_, FileSystem.run_change_of_ok (FileTree.overwrite_of_target htarget h.entry code),
    holds_put h.isOpen h.spares htarget _⟩

/-- Whether the code waits or not, it is written between or after lines that go elsewhere. -/
theorem run_writeCode (h : Holds log config tree output names "".toUTF8) (g : Generated) :
    let written := (writeCode config log output g : StateM FileTree _).run tree
    written.1 = (CommandResult.ofVerdict g.passed "" "").after log.completion.onStderr ∧
      Holds log config written.2 output names g.code.toUTF8 := by
  intro written
  unfold written writeCode
  dsimp only
  split_ifs
  -- short code is written after the last lines, longer code before them
  · have hadded := h.add log.completion fun hfile => (h.spares hfile).2.2
    obtain ⟨after, hrun, hholds⟩ := hadded.overwrite g.code
    rw [FileSystem.run_bind, FileSystem.run_bind, hrun]
    exact ⟨rfl, hholds⟩
  · obtain ⟨after, hrun, hholds⟩ := h.overwrite g.code
    rw [FileSystem.run_bind, hrun]
    exact ⟨rfl, hholds.add log.completion fun hfile => (hholds.spares hfile).2.2⟩

theorem run_runGenerateTo_of_target_error {cause : FileError}
    (htarget : tree.target output = .error cause) :
    (runGenerateTo config log model output : StateM FileTree _).run tree =
      (.ofFailure (.output output cause), tree) := by
  have hwrite : tree.write output "" = .error cause := by
    rw [FileTree.write, htarget]
    rfl
  unfold runGenerateTo
  rw [FileSystem.run_bind, FileSystem.run_write_of_error hwrite]
  rfl

theorem run_runGenerateTo_of_error
    (hholds : Holds log config (emptied tree names) output names "".toUTF8)
    (htarget : tree.target output = .ok names) {failure : CommandFailure}
    (hmade : generated config (emptied tree names) model = .error failure) :
    let done := (runGenerateTo config log model output : StateM FileTree _).run tree
    done.1 = (CommandResult.ofFailure failure).after log.analysis.onStderr ∧
      done.2.read output = .ok "".toUTF8 := by
  intro done
  have hadded := hholds.add log.analysis fun hfile => (hholds.spares hfile).1
  unfold done runGenerateTo
  rw [FileSystem.run_bind, run_write_nothing htarget]
  dsimp only
  rw [FileSystem.run_bind, run_runGenerate_generated, hmade]
  exact ⟨rfl, hadded.read⟩

theorem run_runGenerateTo_of_ok
    (hholds : Holds log config (emptied tree names) output names "".toUTF8)
    (htarget : tree.target output = .ok names) {g : Generated}
    (hmade : generated config (emptied tree names) model = .ok g) :
    let done := (runGenerateTo config log model output : StateM FileTree _).run tree
    done.1 = ((((CommandResult.ofVerdict g.passed "" "").after log.completion.onStderr).after
      log.rendering.onStderr).after g.diagnostics).after log.analysis.onStderr ∧
      done.2.read output = .ok g.code.toUTF8 := by
  intro done
  have hanalyzed := hholds.add log.analysis fun hfile => (hholds.spares hfile).1
  have hrendered := hanalyzed.add log.rendering fun hfile =>
    (hanalyzed.spares hfile).2.1
  obtain ⟨hresult, hwritten⟩ := run_writeCode hrendered g
  unfold done runGenerateTo
  rw [FileSystem.run_bind, run_write_nothing htarget]
  dsimp only
  rw [FileSystem.run_bind, run_runGenerate_generated, hmade]
  dsimp only
  rw [FileSystem.run_bind, FileSystem.run_bind, FileSystem.run_bind]
  refine ⟨?_, hwritten.read⟩
  rw [← hresult]
  rfl

end Writing

end Command

theorem CommandResult.after_after (r : CommandResult) (first second : String) :
    (r.after second).after first = r.after (first ++ second) := by
  unfold CommandResult.after
  rw [String.append_assoc]

theorem CommandResult.exitCode_after (text : String) (r : CommandResult) :
    (r.after text).exitCode = r.exitCode := rfl

namespace CommandLine

variable {explicit : Option String} {environment : Environment} {timestamp : String}
variable {log : RunLog} {config : Config} {command : Command}

theorem run_of_config_error {failure : Failure}
    (hload : (Config.load explicit Config.defaultVariableStart environment :
      StateM FileTree _).run tree = (.error failure, tree)) :
    (run ⟨explicit, command⟩ environment timestamp log : StateM FileTree _).run tree =
      (.ofFailure (.configuration failure), tree) := by
  unfold run
  rw [FileSystem.run_bind, hload]
  rfl

theorem run_of_start_error {failure : LogFailure}
    (hload : (Config.load explicit Config.defaultVariableStart environment :
      StateM FileTree _).run tree = (.ok config, tree))
    (hstart : ((log.start config.logging : StateM FileTree _).run tree).1 = .error failure) :
    (run ⟨explicit, command⟩ environment timestamp log : StateM FileTree _).run tree =
      (.ofLogFailure failure, ((log.start config.logging : StateM FileTree _).run tree).2) := by
  unfold run
  rw [FileSystem.run_bind, hload]
  dsimp only
  rw [FileSystem.run_bind, hstart]
  rfl

/-- Once the log has started, the command is carried out, with the first lines before all others. -/
theorem run_of_start
    (hload : (Config.load explicit Config.defaultVariableStart environment :
      StateM FileTree _).run tree = (.ok config, tree))
    (hstart : ((log.start config.logging : StateM FileTree _).run tree).1 = .ok ()) :
    (run ⟨explicit, command⟩ environment timestamp log : StateM FileTree _).run tree =
      let done := (command.runWith config timestamp log : StateM FileTree _).run
        ((log.start config.logging : StateM FileTree _).run tree).2
      (done.1.after log.opening.onStderr, done.2) := by
  unfold run
  rw [FileSystem.run_bind, hload]
  dsimp only
  rw [FileSystem.run_bind, hstart]
  rfl

end CommandLine

/-- What `generate` leaves in the output file. A configuration that cannot be loaded leaves all files
as they were. Starting the log changes no file but its own, nor what can be made of a model at a path
that leads somewhere before. If it can be started and the output file can be created then, that file
is emptied first. It stays empty if the model cannot be loaded, and otherwise holds the code for the
model as it is read with the file emptied, which is the model as it was before unless its path leads
to the output file. -/
theorem output_of_generate (tree : FileTree) (explicit : Option String) (model output : String)
    (denyWarnings : Bool) (environment : Environment) (timestamp : String) (log : RunLog) :
    let line : CommandLine := ⟨explicit, .generate model (some output) denyWarnings⟩
    let run := (line.run environment timestamp log : StateM FileTree _).run tree
    let loaded := ((Config.load explicit Config.defaultVariableStart environment :
      StateM FileTree _).run tree).1
    (∀ failure, loaded = .error failure → run = (.ofFailure (.configuration failure), tree)) ∧
    ∀ config, loaded = .ok config →
      let started := (log.start config.logging : StateM FileTree _).run tree
      let opened := started.2
      let made (t : FileTree) :=
        Command.generated (config.denyingWarnings denyWarnings) t model
      (config.logging.fileOutput = none → opened = tree) ∧
      (∀ names, ¬ log.IsFile config.logging opened names → ∀ content,
        opened.entry? names = some (.file content) ↔ tree.entry? names = some (.file content)) ∧
      (∀ names, tree.locate model = .ok names → made opened = made tree) ∧
      (∀ failure, started.1 = .error failure → run = (.ofLogFailure failure, opened)) ∧
      (started.1 = .ok () →
        (∀ cause, opened.target output = .error cause →
          run = ((CommandResult.ofFailure (.output output cause)).after log.opening.onStderr,
            opened)) ∧
        ∀ names, opened.target output = .ok names → log.Spares config.logging opened names →
          let before := Command.emptied opened names
          (∀ failure, made before = .error failure →
            run.1 = (CommandResult.ofFailure failure).after
              (log.opening.onStderr ++ log.analysis.onStderr) ∧
            run.2.read output = .ok "".toUTF8) ∧
          (∀ g, made before = .ok g →
            run.1 = (CommandResult.ofVerdict g.passed "" "").after
              (log.opening.onStderr ++ (log.analysis.onStderr ++
                (g.diagnostics ++ (log.rendering.onStderr ++ log.completion.onStderr)))) ∧
            run.2.read output = .ok g.code.toUTF8) ∧
          (before.locate model ≠ .ok names → ∀ g, made before = .ok g ↔ made opened = .ok g)) := by
  intro line run loaded
  have hload : (Config.load explicit Config.defaultVariableStart environment :
      StateM FileTree _).run tree = (loaded, tree) :=
    Prod.ext rfl (Config.run_load_snd _ environment tree explicit)
  refine ⟨fun failure hfailure => ?_, fun config hconfig => ?_⟩
  · rw [hfailure] at hload
    exact CommandLine.run_of_config_error hload
  rw [hconfig] at hload
  intro started opened made
  refine ⟨RunLog.run_start_of_no_file, (RunLog.keeping_start tree).file_iff, fun names hlocate =>
    Command.generated_of_start _ hlocate, fun failure hfailure =>
    CommandLine.run_of_start_error hload hfailure, fun hstart => ?_⟩
  let limited := config.denyingWarnings denyWarnings
  have hrun : run =
      let done := (Command.runGenerateTo limited log model output : StateM FileTree _).run opened
      (done.1.after log.opening.onStderr, done.2) := CommandLine.run_of_start hload hstart
  rw [hrun]
  refine ⟨fun cause htarget => ?_, fun names htarget hspares => ?_⟩
  · rw [Command.run_runGenerateTo_of_target_error htarget]
  intro before
  have hholds : Command.Holds log limited before output names "".toUTF8 :=
    Command.holds_emptied (RunLog.isOpen_of_start hstart) hspares htarget
  refine ⟨fun failure hmade => ?_, fun g hmade => ?_, fun hother =>
    Command.generated_eq_ok_iff _ fun content => FileTree.read_put_eq_ok_iff htarget hother⟩
  -- the texts on the error stream are in the order of the run, one added before the other
  · obtain ⟨hresult, hread⟩ := Command.run_runGenerateTo_of_error hholds htarget hmade
    refine ⟨?_, hread⟩
    dsimp only
    rw [hresult, CommandResult.after_after]
  · obtain ⟨hresult, hread⟩ := Command.run_runGenerateTo_of_ok hholds htarget hmade
    refine ⟨?_, hread⟩
    dsimp only
    simp only [hresult, CommandResult.after_after]

/-- One class with a public constructor, registered for an interface. -/
def clockText : String := "types:
  - name: Clock
    constructors:
      - accessibility: public
invocations:
  - method: Register
    type_arguments: [IClock, Clock]
    location:
      file: Program.cs
      line: 3
      column: 9
    binding:
      containing_type: Wirebind.Registrations
      is_extension: false
      parameters: []
"

def clockDocument : ModelDocument :=
  { types := [{ name := "Clock", constructors := [{}] }]
    invocations := [{
      method := "Register"
      typeArguments := ["IClock", "Clock"]
      location := ⟨"Program.cs", 3, 9⟩
      binding := some ⟨"Wirebind.Registrations", false, []⟩ }] }

/-- What is made of the class. -/
def clockMade : Generated where
  passed := true
  code := Emission.header {} ++
    "            global::Wirebind.Locator.CurrentMutable.Register(" ++
    "() => new global::Clock(), typeof(global::IClock));\n" ++
    Emission.footer
  diagnostics := ""

/-- What is made of a model without calls. -/
def emptyMade : Generated := ⟨true, Emission.emit {} [], ""⟩

set_option maxRecDepth 10000 in
theorem ofYaml?_clockText : ModelDocument.ofYaml? clockText = some clockDocument := by
  -- from the characters, as a text is slow to take apart
  obtain ⟨cs, htext, hcs⟩ : ∃ cs, clockText = String.ofList cs ∧
      ModelDocument.ofYaml? (String.ofList cs) = some clockDocument := by
    refine ⟨_, rfl, ?_⟩
    unfold ModelDocument.ofYaml? Yaml.Node.parse?
    rw [Yaml.Token.scan?_ofList]
    decide +kernel
  rw [htext, hcs]

namespace Command

/-- How a run is logged makes no difference to the code. -/
theorem generated_logging (logging : LoggingConfig) (tree : FileTree) (path : String) :
    generated { logging } tree path = generated {} tree path := rfl

theorem generated_clock (hformat : DocumentFormat.ofPath path = .ok .yaml)
    (hread : tree.read path = .ok clockText.toUTF8) :
    generated {} tree path = .ok clockMade := by
  have hmade : (Config.analyze {} clockDocument).map ({} : Config).generateOutcome =
    .ok clockMade := by decide +kernel
  rw [generated, run_runGenerate_eq, ModelDocument.run_read_of_text hformat hread,
    ModelDocument.ofText, ofYaml?_clockText]
  dsimp only
  rw [Except.bind]
  cases hanalyzed : Config.analyze {} clockDocument with
  | error failure =>
    rw [hanalyzed] at hmade
    cases hmade
  | ok outcome =>
    rw [hanalyzed] at hmade
    exact congrArg Except.ok (Except.ok.inj hmade)

theorem generated_emptyModel (hread : tree.read "clock.yaml" = .ok "".toUTF8) :
    generated {} tree "clock.yaml" = .ok emptyMade := by
  have hformat : DocumentFormat.ofPath "clock.yaml" = .ok .yaml := by decide +kernel
  have hempty : ModelDocument.ofYaml? "" = some {} := by decide +kernel
  rw [generated, run_runGenerate_eq, ModelDocument.run_read_of_text hformat hread,
    ModelDocument.ofText, hempty]
  rfl

/-- The failure of a run whose model is not there. -/
def missingModel (path : String) : CommandFailure := .model path (.unreadableModel path .notFound)

theorem generated_missingModel {format : DocumentFormat}
    (hformat : DocumentFormat.ofPath path = .ok format) (hread : tree.read path = .error .notFound) :
    generated {} tree path = .error (missingModel path) := by
  have hdocument : ((ModelDocument.read path : StateM FileTree _).run tree).1 =
      .error (.unreadableModel path .notFound) := by
    unfold ModelDocument.read
    rw [hformat]
    dsimp only
    rw [FileSystem.run_bind, FileSystem.run_readText, hread]
    rfl
  rw [generated, run_runGenerate_eq, hdocument]
  rfl

end Command

/-- A model and a file from an earlier run. -/
def staleOutputTree : FileTree where
  entries := [(["clock.yaml"], .file clockText.toUTF8), (["out.cs"], .file "// old\n".toUTF8)]

/-- A log file is asked for, in a directory that has to be made. -/
def loggedEnvironment : Environment :=
  { named := [("WIREBIND_LOGGING__FILE_OUTPUT", "logs/run.log")] }

def loggedConfig : Config := { logging := { fileOutput := some "logs/run.log" } }

theorem run_load_staleOutputTree (environment : Environment) {config : Config}
    (hpaths : (Config.defaultPaths environment).find? staleOutputTree.isPresent = none)
    (hlayers : Config.ofLayers (.table [])
      (Setting.ofVariables (Config.defaultVariableStart ++ "_") environment.named) = .ok config) :
    (Config.load none Config.defaultVariableStart environment : StateM FileTree _).run
      staleOutputTree = (.ok config, staleOutputTree) := by
  have hsource : Option.or none ((Config.defaultPaths environment).find?
    staleOutputTree.isPresent) = none := hpaths
  rw [Config.run_load, Config.run_readLayer_of_no_source _ hsource]
  exact Prod.ext hlayers rfl

theorem run_load_quiet :
    (Config.load none Config.defaultVariableStart {} : StateM FileTree _).run staleOutputTree =
      (.ok {}, staleOutputTree) := run_load_staleOutputTree {} rfl (by decide +kernel)

theorem run_load_logged :
    (Config.load none Config.defaultVariableStart loggedEnvironment : StateM FileTree _).run
      staleOutputTree = (.ok loggedConfig, staleOutputTree) :=
  run_load_staleOutputTree loggedEnvironment rfl (by decide +kernel)

/-- The tree once the log is open, with its first lines. -/
def openedTree (lines : String) : FileTree :=
  (staleOutputTree.put ["logs"] .directory).put ["logs", "run.1970-01-01"] (.file lines.toUTF8)

theorem place?_logged : loggedConfig.logging.place? .epoch = some ⟨"logs", "run.1970-01-01"⟩ := by
  decide +kernel

theorem run_start_logged {log : RunLog} (hday : log.day = .epoch) (hrefusal : log.refusal = none) :
    (log.start loggedConfig.logging : StateM FileTree _).run staleOutputTree =
      (.ok (), openedTree log.opening.inFile) := by
  have hlevel : LogLevel.ofText loggedConfig.logging.level = .ok .warn := by decide +kernel
  have hpath : LogPlace.path ⟨"logs", "run.1970-01-01"⟩ = "logs/run.1970-01-01" := by decide +kernel
  unfold RunLog.start RunLog.openPlace RunLog.add RunLog.openFile
  rw [hlevel, hday, hrefusal, place?_logged]
  dsimp only
  rw [hpath]
  rfl

theorem not_isFile_logged {log : RunLog} {names : List String} (hday : log.day = .epoch)
    (hnames : names ≠ ["logs", "run.1970-01-01"]) (lines : String) :
    ¬ log.IsFile loggedConfig.logging (openedTree lines) names := by
  rintro ⟨place, hplace, hlocate⟩
  rw [hday, place?_logged] at hplace
  obtain rfl := Option.some.inj hplace
  have hlog : (openedTree lines).locate (LogPlace.path ⟨"logs", "run.1970-01-01"⟩) =
    .ok ["logs", "run.1970-01-01"] := rfl
  exact hnames (Except.ok.inj (hlocate.symm.trans hlog))

/-- A run of `generate` there. -/
def runStale (environment : Environment) (log : RunLog) (model output : String) :
    CommandResult × FileTree :=
  (CommandLine.run ⟨none, .generate model (some output) false⟩ environment "" log :
    StateM FileTree _).run staleOutputTree

/-- A log with lines at the start and about the analysis. -/
def chattyLog : RunLog :=
  { opening := ⟨"started\n", "started\n"⟩, analysis := ⟨"analyzed\n", "analyzed\n"⟩ }

/-- The earlier file gives way to the code, or to nothing where there is no model, and a file that is
not there is created, here in the directory of the log. -/
theorem output_of_generate_staleOutputTree :
    let opened := openedTree "started\n"
    ((Config.load none Config.defaultVariableStart loggedEnvironment :
      StateM FileTree _).run staleOutputTree).1 = .ok loggedConfig ∧
    (chattyLog.start loggedConfig.logging : StateM FileTree _).run staleOutputTree =
      (.ok (), opened) ∧
    opened.target "logs/gen.cs" = .ok ["logs", "gen.cs"] ∧
    chattyLog.Spares loggedConfig.logging opened ["logs", "gen.cs"] ∧
    (Command.emptied opened ["logs", "gen.cs"]).locate "clock.yaml" ≠ .ok ["logs", "gen.cs"] ∧
    Command.generated loggedConfig staleOutputTree "clock.yaml" = .ok clockMade ∧
    (runStale loggedEnvironment chattyLog "clock.yaml" "logs/gen.cs").1 =
      ⟨0, "", "started\nanalyzed\n"⟩ ∧
    (runStale loggedEnvironment chattyLog "clock.yaml" "logs/gen.cs").2.read "logs/gen.cs" =
      .ok clockMade.code.toUTF8 ∧
    (runStale loggedEnvironment chattyLog "missing.json" "out.cs").1 =
      (CommandResult.ofFailure (Command.missingModel "missing.json")).after
        "started\nanalyzed\n" ∧
    (runStale loggedEnvironment chattyLog "missing.json" "out.cs").2.read "out.cs" =
      .ok "".toUTF8 := by
  intro opened
  have hloaded := congrArg Prod.fst run_load_logged
  have hstart : (chattyLog.start loggedConfig.logging : StateM FileTree _).run staleOutputTree =
    (.ok (), opened) := run_start_logged rfl rfl
  have hgenerated : Command.generated loggedConfig staleOutputTree "clock.yaml" =
      .ok clockMade :=
    (Command.generated_logging _ _ _).trans (Command.generated_clock (by decide +kernel) rfl)
  have htarget : opened.target "logs/gen.cs" = .ok ["logs", "gen.cs"] := rfl
  have htarget' : opened.target "out.cs" = .ok ["out.cs"] := rfl
  have hspares : chattyLog.Spares loggedConfig.logging opened ["logs", "gen.cs"] :=
    fun hfile => absurd hfile (not_isFile_logged rfl (by decide) _)
  have hspares' : chattyLog.Spares loggedConfig.logging opened ["out.cs"] :=
    fun hfile => absurd hfile (not_isFile_logged rfl (by decide) _)
  have hother : (Command.emptied opened ["logs", "gen.cs"]).locate "clock.yaml" ≠
      .ok ["logs", "gen.cs"] := by
    have hplace : (Command.emptied opened ["logs", "gen.cs"]).locate "clock.yaml" =
      .ok ["clock.yaml"] := rfl
    rw [hplace]
    decide
  have hmissing : DocumentFormat.ofPath "missing.json" = .ok .json := by decide +kernel
  have hfailed : Command.generated loggedConfig (Command.emptied opened ["out.cs"])
      "missing.json" = .error (Command.missingModel "missing.json") :=
    (Command.generated_logging _ _ _).trans (Command.generated_missingModel hmissing rfl)
  have hopened := congrArg Prod.snd hstart
  have hstarted := congrArg Prod.fst hstart
  obtain ⟨_, _, hsame, _, hwritten⟩ := (output_of_generate staleOutputTree none "clock.yaml"
    "logs/gen.cs" false loggedEnvironment "" chattyLog).2 loggedConfig hloaded
  obtain ⟨_, _, _, _, hwritten'⟩ := (output_of_generate staleOutputTree none "missing.json"
    "out.cs" false loggedEnvironment "" chattyLog).2 loggedConfig hloaded
  obtain ⟨_, hcode, hbefore⟩ := (hwritten hstarted).2 ["logs", "gen.cs"]
    (by rw [hopened]; exact htarget) (by rw [hopened]; exact hspares)
  obtain ⟨hempty, _⟩ := (hwritten' hstarted).2 ["out.cs"]
    (by rw [hopened]; exact htarget') (by rw [hopened]; exact hspares')
  have hmade := (hbefore (by rw [hopened]; exact hother) _).mpr
    ((hsame ["clock.yaml"] rfl).trans hgenerated)
  have hfailed := hempty (Command.missingModel "missing.json") (by
    rw [hopened]
    exact hfailed)
  obtain ⟨hresult, hread⟩ := hcode _ hmade
  obtain ⟨hresult', hread'⟩ := hfailed
  have hstderr : chattyLog.opening.onStderr ++ chattyLog.analysis.onStderr =
    "started\nanalyzed\n" := by decide +kernel
  have hverdict : (CommandResult.ofVerdict clockMade.passed "" "").after
      (chattyLog.opening.onStderr ++ (chattyLog.analysis.onStderr ++ (clockMade.diagnostics ++
        (chattyLog.rendering.onStderr ++ chattyLog.completion.onStderr)))) =
    ⟨0, "", "started\nanalyzed\n"⟩ := by decide +kernel
  rw [hstderr] at hresult'
  unfold runStale
  exact ⟨hloaded, hstart, htarget, hspares, hother, hgenerated, hresult.trans hverdict, hread,
    hresult', hread'⟩

theorem runStale_eq {environment : Environment} {log : RunLog} {config : Config}
    {opened : FileTree}
    (hload : (Config.load none Config.defaultVariableStart environment : StateM FileTree _).run
      staleOutputTree = (.ok config, staleOutputTree))
    (hstart : (log.start config.logging : StateM FileTree _).run staleOutputTree =
      (.ok (), opened)) (model output : String) :
    (runStale environment log model output).1 =
        ((Command.runGenerateTo (config.denyingWarnings false) log model output :
          StateM FileTree _).run opened).1.after log.opening.onStderr ∧
      (runStale environment log model output).2 =
        ((Command.runGenerateTo (config.denyingWarnings false) log model output :
          StateM FileTree _).run opened).2 := by
  have hrun : runStale environment log model output = _ :=
    CommandLine.run_of_start hload (congrArg Prod.fst hstart)
  rw [hstart] at hrun
  rw [hrun]
  exact ⟨rfl, rfl⟩

theorem runStale_quiet (model output : String) :
    (runStale {} {} model output).1 =
        ((Command.runGenerateTo {} {} model output : StateM FileTree _).run
          staleOutputTree).1.after "" ∧
      (runStale {} {} model output).2 =
        ((Command.runGenerateTo {} {} model output : StateM FileTree _).run
          staleOutputTree).2 := by
  have hlevel : LogLevel.ofText ({} : Config).logging.level = .ok .warn := by decide +kernel
  have hstart : (({} : RunLog).start ({} : Config).logging : StateM FileTree _).run
      staleOutputTree = (.ok (), staleOutputTree) := by
    unfold RunLog.start
    rw [hlevel]
    rfl
  exact runStale_eq run_load_quiet hstart model output

/-- A log with lines about the analysis. -/
def analysisLog (lines : String) : RunLog := { analysis := ⟨"", lines⟩ }

theorem run_start_analysisLog (lines : String) :
    ((analysisLog lines).start loggedConfig.logging : StateM FileTree _).run staleOutputTree =
      (.ok (), openedTree "") := run_start_logged rfl rfl

theorem runStale_logged (lines model output : String) :
    (runStale loggedEnvironment (analysisLog lines) model output).1 =
        ((Command.runGenerateTo loggedConfig (analysisLog lines) model output :
          StateM FileTree _).run (openedTree "")).1.after "" ∧
      (runStale loggedEnvironment (analysisLog lines) model output).2 =
        ((Command.runGenerateTo loggedConfig (analysisLog lines) model output :
          StateM FileTree _).run (openedTree "")).2 :=
  runStale_eq run_load_logged (run_start_analysisLog lines) model output

namespace Command

theorem holds_quiet {names : List String} {output : String}
    (htarget : staleOutputTree.target output = .ok names) :
    Holds {} {} (emptied staleOutputTree names) output names "".toUTF8 :=
  holds_emptied (fun _ hplace => nomatch hplace) (fun hfile => nomatch hfile.choose_spec.1) htarget

/-- Where the output file is the file of the log, the code is written over the lines there. -/
theorem run_runGenerateTo_logFile {g : Generated} (lines : String)
    (hmade : generated loggedConfig (emptied (openedTree "") ["logs", "run.1970-01-01"])
      "clock.yaml" = .ok g) (hshort : g.code.utf8ByteSize < bufferSize) :
    let done := (runGenerateTo loggedConfig (analysisLog lines) "clock.yaml"
      "logs/run.1970-01-01" : StateM FileTree _).run (openedTree "")
    let content := (("".toUTF8 ++ lines.toUTF8) ++ "".toUTF8) ++ "".toUTF8
    done.1.exitCode = (if g.passed then 0 else 1) ∧
      done.2.read "logs/run.1970-01-01" =
        .ok (g.code.toUTF8 ++ content.extract g.code.utf8ByteSize content.size) := by
  have hplace : loggedConfig.logging.place? (analysisLog lines).day =
    some ⟨"logs", "run.1970-01-01"⟩ := place?_logged
  have htarget : (openedTree "").target "logs/run.1970-01-01" =
    .ok ["logs", "run.1970-01-01"] := rfl
  unfold runGenerateTo
  rw [FileSystem.run_bind, run_write_nothing htarget]
  dsimp only
  rw [FileSystem.run_bind, run_runGenerate_generated, hmade]
  dsimp only
  unfold writeCode RunLog.add
  rw [hplace, if_pos hshort]
  exact ⟨rfl, rfl⟩

end Command

/-- A run that fails loses what was in the output file before. A run whose output is its model, or the
file of its log, succeeds with other contents than the code for the model. And where the log makes a
directory, a model may be found that could not be found before. -/
theorem output_of_generate_emptied :
    ((runStale {} {} "missing.json" "out.cs").1 =
        .ofFailure (Command.missingModel "missing.json") ∧
      staleOutputTree.read "out.cs" = .ok "// old\n".toUTF8 ∧
      (runStale {} {} "missing.json" "out.cs").2.read "out.cs" = .ok "".toUTF8) ∧
    (Command.generated {} staleOutputTree "clock.yaml" = .ok clockMade ∧
      (runStale {} {} "clock.yaml" "clock.yaml").1.exitCode = 0 ∧
      (runStale {} {} "clock.yaml" "clock.yaml").2.read "clock.yaml" =
        .ok emptyMade.code.toUTF8 ∧ emptyMade.code ≠ clockMade.code) ∧
    (Command.generated loggedConfig staleOutputTree "clock.yaml" = .ok clockMade ∧
      (runStale loggedEnvironment (analysisLog (clockMade.code ++ "\n")) "clock.yaml"
        "logs/run.1970-01-01").1.exitCode = 0 ∧
      (runStale loggedEnvironment (analysisLog (clockMade.code ++ "\n")) "clock.yaml"
        "logs/run.1970-01-01").2.read "logs/run.1970-01-01" ≠ .ok clockMade.code.toUTF8) ∧
    (Command.generated loggedConfig staleOutputTree "logs/../clock.yaml" =
        .error (Command.missingModel "logs/../clock.yaml") ∧
      (runStale loggedEnvironment (analysisLog "") "logs/../clock.yaml" "out.cs").1.exitCode = 0 ∧
      (runStale loggedEnvironment (analysisLog "") "logs/../clock.yaml" "out.cs").2.read "out.cs" =
        .ok clockMade.code.toUTF8) := by
  have hclock : DocumentFormat.ofPath "clock.yaml" = .ok .yaml := by decide +kernel
  have habove : DocumentFormat.ofPath "logs/../clock.yaml" = .ok .yaml := by decide +kernel
  have hmissing : DocumentFormat.ofPath "missing.json" = .ok .json := by decide +kernel
  refine ⟨?_, ⟨Command.generated_clock hclock rfl, ?_⟩,
    ⟨(Command.generated_logging _ _ _).trans (Command.generated_clock hclock rfl), ?_⟩,
    ⟨(Command.generated_logging _ _ _).trans (Command.generated_missingModel habove rfl), ?_⟩⟩
  · have htarget : staleOutputTree.target "out.cs" = .ok ["out.cs"] := rfl
    obtain ⟨hresult, hread⟩ := Command.run_runGenerateTo_of_error (Command.holds_quiet htarget)
      htarget (Command.generated_missingModel hmissing rfl)
    obtain ⟨hfirst, hsecond⟩ := runStale_quiet "missing.json" "out.cs"
    rw [hfirst, hsecond, hresult]
    exact ⟨by simp [CommandResult.after], rfl, hread⟩
  · have htarget : staleOutputTree.target "clock.yaml" = .ok ["clock.yaml"] := rfl
    obtain ⟨hresult, hread⟩ := Command.run_runGenerateTo_of_ok (Command.holds_quiet htarget)
      htarget (Command.generated_emptyModel rfl)
    obtain ⟨hfirst, hsecond⟩ := runStale_quiet "clock.yaml" "clock.yaml"
    rw [hfirst, hsecond, hresult]
    exact ⟨rfl, hread, by decide +kernel⟩
  · have hmade : Command.generated loggedConfig
        (Command.emptied (openedTree "") ["logs", "run.1970-01-01"]) "clock.yaml" =
          .ok clockMade :=
      (Command.generated_logging _ _ _).trans (Command.generated_clock hclock rfl)
    obtain ⟨hexit, hread⟩ := Command.run_runGenerateTo_logFile (clockMade.code ++ "\n") hmade
      (by decide +kernel)
    obtain ⟨hfirst, hsecond⟩ := runStale_logged (clockMade.code ++ "\n") "clock.yaml"
      "logs/run.1970-01-01"
    rw [hfirst, hsecond, CommandResult.exitCode_after, hexit, hread]
    refine ⟨rfl, fun hcontent => ?_⟩
    have hbytes (text : String) : text.toUTF8.size = text.utf8ByteSize := rfl
    have hbreak : "\n".utf8ByteSize = 1 := by decide
    have hsize := congrArg ByteArray.size (Except.ok.inj hcontent)
    simp only [ByteArray.size_append, ByteArray.size_extract, hbytes,
      String.utf8ByteSize_append, hbreak] at hsize
    omega
  · have htarget : (openedTree "").target "out.cs" = .ok ["out.cs"] := rfl
    have hmade : Command.generated loggedConfig (Command.emptied (openedTree "") ["out.cs"])
        "logs/../clock.yaml" = .ok clockMade :=
      (Command.generated_logging _ _ _).trans (Command.generated_clock habove rfl)
    have hspares : (analysisLog "").Spares loggedConfig.logging (openedTree "") ["out.cs"] :=
      fun _ => ⟨rfl, rfl, rfl⟩
    have hopen := RunLog.isOpen_of_start (congrArg Prod.fst (run_start_analysisLog ""))
    rw [run_start_analysisLog] at hopen
    obtain ⟨hresult, hread⟩ := Command.run_runGenerateTo_of_ok
      (Command.holds_emptied hopen hspares htarget) htarget hmade
    obtain ⟨hfirst, hsecond⟩ := runStale_logged "" "logs/../clock.yaml" "out.cs"
    rw [hfirst, hsecond, CommandResult.exitCode_after, hresult, hread]
    exact ⟨rfl, rfl⟩

end Wiring
