import Mathlib.Tactic.SplitIfs
import Wiring.Files.Tree
import Wiring.Proofs.Lookup

/-! What the program sees of a file system, and that a text that has been written is read back. A
file that is written anew stands where the way to its directory has ended, and no way that could be
gone before leads through it. -/
namespace Wiring

/-- Two steps that succeed have each succeeded. -/
theorem exists_of_bind_eq_ok {ε α β : Type} {x : Except ε α} {f : α → Except ε β} {b : β}
    (h : x.bind f = .ok b) : ∃ a, x = .ok a ∧ f a = .ok b := by
  cases x with
  | error e => exact nomatch h
  | ok a => exact ⟨a, rfl, h⟩

namespace FileSystem

/-- A step goes on from what the step before it leaves. -/
theorem run_bind {α β : Type} (action : StateM FileTree α) (next : α → StateM FileTree β)
    (tree : FileTree) :
    (action >>= next).run tree = (next (action.run tree).1).run (action.run tree).2 := rfl

theorem run_isPresent (tree : FileTree) (path : String) :
    (isPresent path : StateM FileTree _).run tree = (tree.isPresent path, tree) := rfl

theorem run_readText (tree : FileTree) (path : String) :
    (readText path : StateM FileTree _).run tree = ((tree.read path).bind decodeText, tree) := rfl

theorem run_change_of_ok {tree after : FileTree} {operation : FileTree → Except FileError FileTree}
    (h : operation tree = .ok after) :
    (FileTree.change operation).run tree = (.ok (), after) := by
  simp only [FileTree.change, bind_pure_comp, StateT.run_bind, StateT.run_get, pure_bind, h,
    StateT.run_map, StateT.run_set, map_pure]
  rfl

theorem run_change_of_error {tree : FileTree} {operation : FileTree → Except FileError FileTree}
    {e : FileError} (h : operation tree = .error e) :
    (FileTree.change operation).run tree = (.error e, tree) := by
  simp only [FileTree.change, bind_pure_comp, StateT.run_bind, StateT.run_get, pure_bind, h,
    StateT.run_pure]
  rfl

theorem run_write_of_ok {tree after : FileTree} {path text : String}
    (h : tree.write path text = .ok after) :
    (write path text : StateM FileTree _).run tree = (.ok (), after) := run_change_of_ok h

theorem run_write_of_error {tree : FileTree} {path text : String} {e : FileError}
    (h : tree.write path text = .error e) :
    (write path text : StateM FileTree _).run tree = (.error e, tree) := run_change_of_error h

theorem decodeText_toUTF8 (text : String) : decodeText text.toUTF8 = .ok text := by
  have hvalid : String.fromUTF8? text.toUTF8 = some text := dif_pos text.isValidUTF8
  unfold decodeText
  rw [hvalid]

end FileSystem

namespace FileTree

variable {t : FileTree} {names here there : List String} {piece : String}

theorem entry?_put_self (hne : names ≠ []) (entry : FileEntry) :
    entry? (t.put names entry) names = some entry := by
  have hnames : names.isEmpty = false := by simpa using hne
  simp [put, entry?, hnames]

theorem entry?_put_of_ne {other : List String} (h : other ≠ names) (entry : FileEntry) :
    entry? (t.put names entry) other = t.entry? other := by
  unfold entry? put
  rw [lookup_cons_of_ne h, lookup_filter fun _ => by simpa using h]

/-! A file in place of a file -/

theorem step_put_of_file {old new : ByteArray} (h : t.entry? names = some (.file old))
    (here : List String) (piece : String) :
    (t.put names (.file new)).step here piece = t.step here piece := by
  have hne : names ≠ [] := by
    rintro rfl
    exact nomatch h
  have hsome : ∀ other, ( entry? (t.put names (.file new)) other).isSome =
      (t.entry? other).isSome := by
    intro other
    by_cases hother : other = names
    · rw [hother, entry?_put_self hne, h]
      rfl
    · rw [entry?_put_of_ne hother]
  unfold step
  by_cases hhere : here = names
  · rw [hhere, entry?_put_self hne, h]
  · rw [entry?_put_of_ne hhere, hsome]

theorem walk_put_of_file {old new : ByteArray} (h : t.entry? names = some (.file old))
    (steps : List String) : (t.put names (.file new)).walk steps = t.walk steps := by
  have hstep : (t.put names (.file new)).step = t.step :=
    funext fun here => funext fun piece => step_put_of_file h here piece
  rw [walk, walk, hstep]

/-! A file where there was none -/

/-- There is an entry at every place on the way. -/
def Stands (t : FileTree) (here : List String) : Prop :=
  ∀ place, place <+: here → (t.entry? place).isSome = true

/-- What one step gives, where it can be made. -/
theorem of_step_eq_ok (h : t.step here piece = .ok there) :
    t.entry? here = some .directory ∧
      (there = here ∨ there = here.dropLast ∨
        there = here ++ [piece] ∧ (t.entry? (here ++ [piece])).isSome = true) := by
  unfold step at h
  split at h
  · exact nomatch h
  · exact nomatch h
  · rename_i hdirectory
    refine ⟨hdirectory, ?_⟩
    split_ifs at h with hstay hup hlong hsome
    · exact .inl (Except.ok.inj h).symm
    · exact .inr (.inl (Except.ok.inj h).symm)
    · exact .inr (.inr ⟨(Except.ok.inj h).symm, hsome⟩)

theorem Stands.step (hstands : t.Stands here) (h : t.step here piece = .ok there) :
    t.Stands there := by
  obtain ⟨_, rfl | rfl | ⟨rfl, hsome⟩⟩ := of_step_eq_ok h
  · exact hstands
  · exact fun place hplace => hstands place (hplace.trans (List.dropLast_prefix here))
  · intro place hplace
    rcases List.prefix_concat_iff.mp hplace with rfl | hbefore
    · exact hsome
    · exact hstands place hbefore

/-- A tree with all that another has, up to what its files hold: directories are directories there,
and where there is anything, there is something. -/
structure Extends (after before : FileTree) : Prop where
  workingDirectory : after.workingDirectory = before.workingDirectory
  directory : ∀ names, before.entry? names = some .directory →
    after.entry? names = some .directory
  isSome : ∀ names, (before.entry? names).isSome = true → (after.entry? names).isSome = true

theorem Extends.refl (t : FileTree) : t.Extends t := ⟨rfl, fun _ h => h, fun _ h => h⟩

theorem Extends.trans {first second third : FileTree} (h : third.Extends second)
    (h' : second.Extends first) : third.Extends first :=
  ⟨h.workingDirectory.trans h'.workingDirectory,
    fun names hnames => h.directory names (h'.directory names hnames),
    fun names hnames => h.isSome names (h'.isSome names hnames)⟩

/-- Only a directory is missed when something is put in its place. -/
theorem extends_put (h : t.entry? names ≠ some .directory) (entry : FileEntry) :
    (t.put names entry).Extends t where
  workingDirectory := rfl
  directory other hother := by
    have hne : other ≠ names := by
      rintro rfl
      exact h hother
    rwa [entry?_put_of_ne hne]
  isSome other hother := by
    by_cases hne : other = names
    · subst hne
      have hnames : other ≠ [] := by
        rintro rfl
        exact h rfl
      rw [entry?_put_self hnames]
      rfl
    · rwa [entry?_put_of_ne hne]

theorem Extends.step {after : FileTree} (hextends : after.Extends t)
    (h : t.step here piece = .ok there) : after.step here piece = .ok there := by
  have hdirectory := (of_step_eq_ok h).1
  unfold FileTree.step at h ⊢
  rw [hextends.directory here hdirectory]
  rw [hdirectory] at h
  dsimp only at h ⊢
  split_ifs at h with hstay hup hlong hsome
  · rw [if_pos hstay, ← h]
  · rw [if_neg hstay, if_pos hup, ← h]
  · rw [if_neg hstay, if_neg hup, if_neg hlong, if_pos (hextends.isSome _ hsome), ← h]

theorem foldlM_step_cons (t : FileTree) (here : List String) (piece : String)
    (rest : List String) :
    (piece :: rest).foldlM t.step here = (t.step here piece).bind fun next =>
      rest.foldlM t.step next := by
  rw [List.foldlM_cons]
  rfl

theorem Stands.foldlM {steps : List String} (hstands : t.Stands here)
    (h : steps.foldlM t.step here = .ok there) : t.Stands there := by
  induction steps generalizing here with
  | nil =>
    obtain rfl := Except.ok.inj h
    exact hstands
  | cons piece rest ih =>
    rw [foldlM_step_cons] at h
    obtain ⟨next, hstep, hrest⟩ := exists_of_bind_eq_ok h
    exact ih (hstands.step hstep) hrest

theorem Extends.foldlM {after : FileTree} {steps : List String} (hextends : after.Extends t)
    (h : steps.foldlM t.step here = .ok there) : steps.foldlM after.step here = .ok there := by
  induction steps generalizing here with
  | nil => exact h
  | cons piece rest ih =>
    rw [foldlM_step_cons] at h
    obtain ⟨next, hstep, hrest⟩ := exists_of_bind_eq_ok h
    rw [foldlM_step_cons, hextends.step hstep]
    exact ih hrest

theorem stands_root (t : FileTree) : t.Stands [] := by
  intro place hplace
  rw [List.prefix_nil.mp hplace]
  rfl

theorem locate_eq_walk {path : String} {pieces : List String}
    (h : t.steps path = .ok pieces) : t.locate path = t.walk pieces := by
  rw [locate, h]
  rfl

theorem steps_congr {after : FileTree} (h : after.workingDirectory = t.workingDirectory)
    (path : String) : after.steps path = t.steps path := by
  unfold steps
  rw [h]

theorem exists_steps_of_locate {path : String} (h : t.locate path = .ok names) :
    ∃ pieces, t.steps path = .ok pieces ∧ t.walk pieces = .ok names := exists_of_bind_eq_ok h

/-- A way that can be gone leads to the same place in a tree with more in it. -/
theorem Extends.locate {after : FileTree} {path : String} (hextends : after.Extends t)
    (h : t.locate path = .ok names) : after.locate path = .ok names := by
  obtain ⟨pieces, hsteps, hwalk⟩ := exists_steps_of_locate h
  rw [locate_eq_walk ((steps_congr hextends.workingDirectory path).trans hsteps)]
  exact hextends.foldlM hwalk

theorem read_eq_ok_iff {path : String} {content : ByteArray} :
    t.read path = .ok content ↔
      ∃ names, t.locate path = .ok names ∧ t.entry? names = some (.file content) := by
  unfold read
  cases t.locate path with
  | error e => simp
  | ok names =>
    cases hentry : t.entry? names with
    | none => simp [hentry]
    | some entry => cases entry <;> simp [hentry]

/-- Whether there is a file at a path. -/
def isFile (t : FileTree) (path : String) : Bool :=
  match t.read path with
  | .ok _ => true
  | .error _ => false

theorem isFile_iff {path : String} :
    t.isFile path = true ↔ ∃ content, t.read path = .ok content := by
  unfold isFile
  cases t.read path with
  | ok content => exact ⟨fun _ => ⟨content, rfl⟩, fun _ => rfl⟩
  | error e => exact ⟨nofun, fun h => nomatch h.choose_spec⟩

theorem isPresent_iff {path : String} :
    t.isPresent path = true ↔ ∃ names, t.locate path = .ok names := by
  unfold isPresent
  cases t.locate path with
  | ok names => exact ⟨fun _ => ⟨names, rfl⟩, fun _ => rfl⟩
  | error e => exact ⟨nofun, fun h => nomatch h.choose_spec⟩

theorem isPresent_of_isFile {path : String} (h : t.isFile path = true) :
    t.isPresent path = true := by
  obtain ⟨content, hread⟩ := isFile_iff.mp h
  obtain ⟨names, hplace, _⟩ := read_eq_ok_iff.mp hread
  exact isPresent_iff.mpr ⟨names, hplace⟩

theorem isSome_entry?_of_locate {path : String} (h : t.locate path = .ok names) :
    (t.entry? names).isSome = true := by
  obtain ⟨pieces, _, hwalk⟩ := exists_steps_of_locate h
  exact t.stands_root.foldlM hwalk names List.prefix_rfl

/-- A file can be created under a proper name, at the end of a way that can be gone. -/
theorem of_creatable_eq_ok {path : String} {pieces : List String}
    (hsteps : t.steps path = .ok pieces) (h : t.creatable path = .ok names) :
    ∃ before name parent, pieces = before ++ [name] ∧ name ≠ "" ∧ name ≠ "." ∧ name ≠ ".." ∧
      t.walk before = .ok parent ∧ names = parent ++ [name] := by
  unfold creatable at h
  rw [hsteps] at h
  dsimp only [bind, Except.bind] at h
  split at h
  · exact nomatch h
  · rename_i name hlast
    split at h
    · exact nomatch h
    · rename_i parent hwalk
      split_ifs at h with hspecial hshort
      have hfull : pieces.reverse.dropWhile (· == "") = pieces.reverse := by
        refine (List.dropWhile_suffix _).eq_of_length_le ?_
        simpa using hshort
      rw [hfull, List.reverse_reverse] at hlast hwalk
      have hname : name ≠ "" := by
        have hhead := List.head?_dropWhile_not (· == "") pieces.reverse
        rw [hfull, List.head?_reverse, hlast] at hhead
        simpa using hhead
      obtain ⟨hdot, hdots⟩ : name ≠ "." ∧ name ≠ ".." := by simpa using hspecial
      obtain ⟨before, rfl⟩ := List.getLast?_eq_some_iff.mp hlast
      rw [List.dropLast_concat] at hwalk
      exact ⟨before, name, parent, rfl, hname, hdot, hdots, hwalk, (Except.ok.inj h).symm⟩

theorem walk_concat (t : FileTree) (before : List String) (piece : String) :
    t.walk (before ++ [piece]) = (t.walk before).bind fun here => t.step here piece := by
  unfold walk
  rw [List.foldlM_append]
  simp only [List.foldlM_cons, List.foldlM_nil, bind_pure]
  rfl

section Missing

variable {before parent : List String} {name : String}

/-- What is not found is missing in a directory, and its name is short enough to be given. -/
theorem of_step_eq_notFound (hstands : t.Stands parent)
    (h : t.step parent name = .error .notFound) :
    t.entry? parent = some .directory ∧ ¬ name.utf8ByteSize > maxNameLength ∧
      t.entry? (parent ++ [name]) = none := by
  unfold FileTree.step at h
  split at h
  · rename_i hnone
    have hsome := hstands parent List.prefix_rfl
    rw [hnone] at hsome
    contradiction
  · exact nomatch h
  · rename_i hdirectory
    split_ifs at h with hstay hup hlong hsome
    · exact nomatch h
    · exact ⟨hdirectory, hlong, by simpa using hsome⟩

/-- Where only the last name of a way is missing, the way ends at a file put under that name. -/
theorem walk_put_of_missing (hname : name ≠ "") (hdot : name ≠ ".") (hdots : name ≠ "..")
    (hparent : t.walk before = .ok parent)
    (hmissing : t.walk (before ++ [name]) = .error .notFound) (entry : FileEntry) :
    (t.put (parent ++ [name]) entry).walk (before ++ [name]) = .ok (parent ++ [name]) := by
  have hlast : t.step parent name = .error .notFound := by
    rwa [walk_concat, hparent] at hmissing
  have hstands : t.Stands parent := t.stands_root.foldlM hparent
  obtain ⟨hdirectory, hlong, hnone⟩ := of_step_eq_notFound hstands hlast
  have hother : parent ≠ parent ++ [name] := by simp
  have hhere : entry? (t.put (parent ++ [name]) entry) parent = some .directory := by
    rw [entry?_put_of_ne hother, hdirectory]
  have hput : ( entry? (t.put (parent ++ [name]) entry) (parent ++ [name])).isSome = true := by
    rw [entry?_put_self (by simp)]
    rfl
  have hwalk : (t.put (parent ++ [name]) entry).walk before = .ok parent :=
    (extends_put (by simp [hnone]) entry).foldlM hparent
  rw [walk_concat, hwalk, Except.bind, FileTree.step, hhere]
  simp [hname, hdot, hdots, hlong, hput]

end Missing

/-- Every path leads where it did when a file is written in place of a file. -/
theorem locate_put_of_file {old new : ByteArray} (h : t.entry? names = some (.file old))
    (path : String) : (t.put names (.file new)).locate path = t.locate path := by
  have hsteps : (t.put names (.file new)).steps path = t.steps path := rfl
  unfold locate
  rw [hsteps]
  cases t.steps path with
  | error e => rfl
  | ok pieces => exact walk_put_of_file h pieces

/-- What is written to is a file, or only the last name of the way to it is missing. -/
theorem of_target_eq_ok {path : String} (h : t.target path = .ok names) :
    (∃ old, t.locate path = .ok names ∧ t.entry? names = some (.file old)) ∨
    ∃ before name parent, t.steps path = .ok (before ++ [name]) ∧
      name ≠ "" ∧ name ≠ "." ∧ name ≠ ".." ∧ t.walk before = .ok parent ∧
      t.walk (before ++ [name]) = .error .notFound ∧ names = parent ++ [name] := by
  unfold target at h
  split at h
  · rename_i there hplace
    split at h
    · rename_i old hfile
      obtain rfl := Except.ok.inj h
      exact .inl ⟨old, hplace, hfile⟩
    · exact nomatch h
  · rename_i hmissing
    cases hsteps : t.steps path with
    | error e =>
      rw [creatable, hsteps] at h
      exact nomatch h
    | ok pieces =>
      obtain ⟨before, name, parent, rfl, hname, hdot, hdots, hparent, hnames⟩ :=
        of_creatable_eq_ok hsteps h
      rw [locate_eq_walk hsteps] at hmissing
      exact .inr ⟨before, name, parent, rfl, hname, hdot, hdots, hparent, hmissing, hnames⟩
  · exact nomatch h

/-- The file that is written to stands at the end of the way of its path. -/
theorem locate_put_of_target {path : String} (h : t.target path = .ok names)
    (content : ByteArray) :
    names ≠ [] ∧ (t.put names (.file content)).locate path = .ok names := by
  rcases of_target_eq_ok h with ⟨old, hplace, hfile⟩ |
    ⟨before, name, parent, hsteps, hname, hdot, hdots, hparent, hmissing, rfl⟩
  · refine ⟨?_, by rw [locate_put_of_file hfile, hplace]⟩
    rintro rfl
    exact nomatch hfile
  · have hsteps' : (t.put (parent ++ [name]) (.file content)).steps path =
      .ok (before ++ [name]) := hsteps
    rw [locate_eq_walk hsteps']
    exact ⟨by simp, walk_put_of_missing hname hdot hdots hparent hmissing _⟩

theorem read_put_of_target {path : String} (h : t.target path = .ok names)
    (content : ByteArray) : (t.put names (.file content)).read path = .ok content := by
  obtain ⟨hne, hplace⟩ := locate_put_of_target h content
  exact read_eq_ok_iff.mpr ⟨names, hplace, entry?_put_self hne _⟩

/-- What has been written to a path is read there. -/
theorem read_of_write {path text : String} {after : FileTree} (h : t.write path text = .ok after) :
    after.read path = .ok text.toUTF8 := by
  unfold write at h
  cases htarget : t.target path with
  | error e =>
    rw [htarget] at h
    exact nomatch h
  | ok names =>
    rw [htarget] at h
    obtain rfl := Except.ok.inj h
    exact read_put_of_target htarget _

end FileTree
end Wiring
