import Mathlib
import Wiring.Command.Run
import Wiring.Proofs.Analysis.Outcome
import Wiring.Proofs.Files.Tree

/-! The verdict of `check` and `generate` on a model file. Both commands read the file, analyze what
it holds and change nothing, so the verdict is that of the one analysis. -/
namespace Wiring

/-- The file at a path is a model document, which loads as a model and its call sites. -/
def FileTree.Loads (tree : FileTree) (path : String) (model : SymbolModel)
    (sites : List InvocationSite) : Prop :=
  ∃ document,
    ((ModelDocument.read path : StateM FileTree _).run tree).1 = .ok document ∧
      SymbolModel.load document = .ok (model, sites)

theorem Yaml.Token.scan?_ofList (cs : List Char) :
    scan? (String.ofList cs) =
      if cs.all isPrintable then Scanner.run? (cs.length + 2) { cursor := { rest := cs } }
      else none := by
  unfold scan?
  rw [String.toList_ofList]

namespace ModelDocument

/-- Reading a model document changes no file. -/
theorem run_read_snd (tree : FileTree) (path : String) :
    ((ModelDocument.read path : StateM FileTree _).run tree).2 = tree := by
  unfold ModelDocument.read
  cases DocumentFormat.ofPath path with
  | error failure => rfl
  | ok format =>
    rw [StateT.run_bind, FileSystem.run_readText]
    cases (tree.read path).bind FileSystem.decodeText with
    | error cause => rfl
    | ok text => rfl

theorem run_read_of_text {tree : FileTree} {path text : String} {format : DocumentFormat}
    (hformat : DocumentFormat.ofPath path = .ok format)
    (hread : tree.read path = .ok text.toUTF8) :
    (ModelDocument.read path : StateM FileTree _).run tree = (ofText format text, tree) := by
  unfold ModelDocument.read
  rw [hformat, StateT.run_bind, FileSystem.run_readText, hread, Except.bind,
    FileSystem.decodeText_toUTF8]
  rfl

end ModelDocument

namespace Command

variable {tree : FileTree} {path : String} {model : SymbolModel} {sites : List InvocationSite}

theorem run_analyzeModel (config : Config) (h : tree.Loads path model sites) :
    (analyzeModel config path : StateM FileTree _).run tree =
      (.ok (analyze model config.analysis sites), tree) := by
  obtain ⟨document, hread, hload⟩ := h
  have hrun : (ModelDocument.read path : StateM FileTree _).run tree = (.ok document, tree) :=
    Prod.ext hread (ModelDocument.run_read_snd tree path)
  have hanalyze : config.analyze document = .ok (analyze model config.analysis sites) := by
    unfold Config.analyze
    rw [hload]
    rfl
  unfold analyzeModel
  rw [StateT.run_bind, hrun]
  change (((Except.ok document).bind config.analyze).mapError (CommandFailure.model path), tree) = _
  rw [Except.bind, hanalyze]
  rfl

theorem run_runCheck (config : Config) (timestamp : String) (h : tree.Loads path model sites) :
    (runCheck config timestamp path : StateM FileTree _).run tree =
      (.ok (config.checkOutcome timestamp path (analyze model config.analysis sites)), tree) := by
  unfold runCheck
  rw [StateT.run_bind, run_analyzeModel config h]
  rfl

theorem run_runGenerate (config : Config) (h : tree.Loads path model sites) :
    (runGenerate config path : StateM FileTree _).run tree =
      (.ok (config.generateOutcome (analyze model config.analysis sites)), tree) := by
  unfold runGenerate
  rw [StateT.run_bind, run_analyzeModel config h]
  rfl

end Command

/-- Errors and warnings tell of every registration that is dropped or repeated, and the verdict of
either command is what they tell. -/
theorem verdict_iff_nothing_rejected :
    (∀ (model : SymbolPort) (options : AnalysisOptions) (sites : List InvocationSite),
      let stats := (analyze model options sites).stats
      let records := extractedRecords model options sites
      (stats.errors = 0 ↔ stats.rejected = 0) ∧ stats.extracted = records.length ∧
        stats.warnings + (records.map RegistrationRecord.key).toFinset.card = stats.extracted) ∧
    ∀ (config : Config) (timestamp path : String) (tree : FileTree) (model : SymbolModel)
      (sites : List InvocationSite), tree.Loads path model sites →
      ∃ checked generated,
        (Command.runCheck config timestamp path : StateM FileTree _).run tree =
          (.ok checked, tree) ∧
        (Command.runGenerate config path : StateM FileTree _).run tree = (.ok generated, tree) ∧
        checked.passed = generated.passed ∧
        (checked.passed = true ↔
          (analyze model config.analysis sites).stats.rejected = 0 ∧
            (config.report.denyWarnings = true →
              ((extractedRecords model config.analysis sites).map
                RegistrationRecord.key).Nodup)) := by
  constructor
  · intro model options sites stats records
    have hextracted : stats.extracted = records.length := stats_extracted_eq model options sites
    refine ⟨stats_errors_eq_zero_iff model options sites, hextracted, ?_⟩
    rw [hextracted]
    exact stats_warnings_add_card model options sites
  · intro config timestamp path tree model sites hloads
    let outcome := analyze model config.analysis sites
    refine ⟨config.checkOutcome timestamp path outcome, config.generateOutcome outcome,
      Command.run_runCheck config timestamp hloads, Command.run_runGenerate config hloads, rfl, ?_⟩
    exact passes_iff model config.analysis sites config.report.denyWarnings

/-- Two calls that register a constant for the same interface. -/
def repeatedConstantText : String := "invocations:
  - &constant
    method: RegisterConstant
    type_arguments: [IClock]
    location:
      file: Program.cs
      line: 3
      column: 9
    binding:
      containing_type: Wirebind.Registrations
      is_extension: false
      parameters: []
  - *constant
"

def constantCall : InvocationDecl :=
  { method := "RegisterConstant"
    typeArguments := ["IClock"]
    location := ⟨"Program.cs", 3, 9⟩
    binding := some ⟨"Wirebind.Registrations", false, []⟩ }

def constantSite : InvocationSite :=
  { methodName := "RegisterConstant"
    typeArguments := [⟨0, "IClock"⟩]
    arguments := []
    location := ⟨"Program.cs", 3, 9⟩
    binding := some ⟨"Wirebind.Registrations", false, []⟩ }

set_option maxRecDepth 10000 in
theorem ofYaml?_repeatedConstantText :
    ModelDocument.ofYaml? repeatedConstantText =
      some { invocations := [constantCall, constantCall] } := by
  -- evaluation starts from the characters, since a text is slow to take apart
  obtain ⟨cs, htext, hcs⟩ : ∃ cs, repeatedConstantText = String.ofList cs ∧
      ModelDocument.ofYaml? (String.ofList cs) =
        some { invocations := [constantCall, constantCall] } := by
    refine ⟨_, rfl, ?_⟩
    unfold ModelDocument.ofYaml? Yaml.Node.parse?
    rw [Yaml.Token.scan?_ofList]
    decide +kernel
  rw [htext, hcs]

def repeatedConstantTree : FileTree where
  entries := [(["model.yaml"], .file repeatedConstantText.toUTF8)]

def repeatedConstantModel : SymbolModel := { types := #[{ name := "IClock" }] }

theorem loads_repeatedConstantTree :
    repeatedConstantTree.Loads "model.yaml" repeatedConstantModel
      [constantSite, constantSite] := by
  refine ⟨{ invocations := [constantCall, constantCall] }, ?_, by cbv⟩
  have hformat : DocumentFormat.ofPath "model.yaml" = .ok .yaml := by decide +kernel
  have hread : repeatedConstantTree.read "model.yaml" = .ok repeatedConstantText.toUTF8 := rfl
  rw [ModelDocument.run_read_of_text hformat hread, ModelDocument.ofText,
    ofYaml?_repeatedConstantText]

/-- Nothing is rejected there, but both commands fail where warnings are denied. -/
theorem verdict_repeatedConstantTree :
    let config : Config := { report := { denyWarnings := true } }
    repeatedConstantTree.Loads "model.yaml" repeatedConstantModel
      [constantSite, constantSite] ∧
    (analyze repeatedConstantModel config.analysis
      [constantSite, constantSite]).stats.rejected = 0 ∧
    ∃ checked generated,
      (Command.runCheck config "" "model.yaml" : StateM FileTree _).run repeatedConstantTree =
        (.ok checked, repeatedConstantTree) ∧
      (Command.runGenerate config "model.yaml" : StateM FileTree _).run repeatedConstantTree =
        (.ok generated, repeatedConstantTree) ∧
      checked.passed = false ∧ generated.passed = false := by
  intro config
  refine ⟨loads_repeatedConstantTree, by decide +kernel, ?_⟩
  obtain ⟨checked, generated, hcheck, hgenerate, hsame, hverdict⟩ :=
    verdict_iff_nothing_rejected.2 config "" _ _ _ _ loads_repeatedConstantTree
  have hrepeated : ¬ ((extractedRecords repeatedConstantModel config.analysis
      [constantSite, constantSite]).map RegistrationRecord.key).Nodup := by decide +kernel
  have hfails : checked.passed = false := by
    rw [← Bool.not_eq_true, hverdict]
    exact fun h => hrepeated (h.2 rfl)
  exact ⟨checked, generated, hcheck, hgenerate, hfails, hsame ▸ hfails⟩

end Wiring
