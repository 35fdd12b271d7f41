import Wiring.Config.Loading
import Wiring.Proofs.Files.Tree

/-! What loading a configuration comes to in a file system: the settings of the file are read, and
nothing is changed. -/
namespace Wiring.Config

variable (path start : String) (environment : Environment) (tree : FileTree)

theorem run_readLayer_some :
    (readLayer (some path) environment : StateM FileTree _).run tree =
      (if tree.isPresent path then fileLayer ((tree.read path).bind FileSystem.decodeText)
        else .error (.missingConfig path), tree) := by
  unfold readLayer
  dsimp only
  rw [StateT.run_bind, FileSystem.run_isPresent]
  cases tree.isPresent path <;> rfl

theorem run_load (explicit : Option String) :
    (load explicit start environment : StateM FileTree _).run tree =
      (((readLayer explicit environment : StateM FileTree _).run tree).1.bind fun file =>
          ofLayers file (Setting.ofVariables (start ++ "_") environment.named),
        ((readLayer explicit environment : StateM FileTree _).run tree).2) := rfl

variable {path tree}

theorem run_readLayer_of_text {text : String} (hread : tree.read path = .ok text.toUTF8) :
    (readLayer (some path) environment : StateM FileTree _).run tree =
      (fileLayer (.ok text), tree) := by
  have hpresent : tree.isPresent path = true :=
    FileTree.isPresent_of_isFile (FileTree.isFile_iff.mpr ⟨_, hread⟩)
  rw [run_readLayer_some, if_pos hpresent, hread, Except.bind, FileSystem.decodeText_toUTF8]

theorem run_firstPresent (tree : FileTree) (paths : List String) :
    (firstPresent paths : StateM FileTree _).run tree = (paths.find? tree.isPresent, tree) := by
  induction paths with
  | nil => rfl
  | cons path rest ih =>
    unfold firstPresent
    rw [StateT.run_bind, FileSystem.run_isPresent, List.find?_cons]
    cases tree.isPresent path with
    | true => rfl
    | false => exact ih

/-- What is read is what stands at the source, as long as there is anything. -/
theorem run_readLayer_of_source {explicit : Option String}
    (hsource : explicit.or ((defaultPaths environment).find? tree.isPresent) = some path)
    (hpresent : tree.isPresent path = true) :
    (readLayer explicit environment : StateM FileTree _).run tree =
      (fileLayer ((tree.read path).bind FileSystem.decodeText), tree) := by
  cases explicit with
  | some explicitPath =>
    obtain rfl := Option.some.inj hsource
    rw [run_readLayer_some, if_pos hpresent]
  | none =>
    unfold readLayer
    dsimp only
    rw [StateT.run_bind, run_firstPresent, Option.none_or.symm.trans hsource]
    rfl

theorem run_readLayer_of_no_source {explicit : Option String}
    (hsource : explicit.or ((defaultPaths environment).find? tree.isPresent) = none) :
    (readLayer explicit environment : StateM FileTree _).run tree = (.ok (.table []), tree) := by
  obtain ⟨rfl, hnone⟩ := Option.or_eq_none_iff.mp hsource
  unfold readLayer
  dsimp only
  rw [StateT.run_bind, run_firstPresent, hnone]
  rfl

/-- Loading changes no file. -/
theorem run_load_snd (start : String) (environment : Environment) (tree : FileTree)
    (explicit : Option String) :
    ((load explicit start environment : StateM FileTree _).run tree).2 = tree := by
  rw [run_load]
  cases explicit with
  | some path => rw [run_readLayer_some]
  | none =>
    cases hsource : (defaultPaths environment).find? tree.isPresent with
    | none => rw [run_readLayer_of_no_source environment (Option.none_or.trans hsource)]
    | some path =>
      rw [run_readLayer_of_source environment (Option.none_or.trans hsource)
        (List.find?_some hsource)]

end Wiring.Config
