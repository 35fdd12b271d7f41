import Wiring.Proofs.Files.Frame

/-! A file system in which directories are made and a text is added to a file. All that was there
stays where it was, and no file changes but the one that is added to. -/
namespace Wiring.FileTree

variable {t after before : FileTree} {names here : List String} {touched : List String → Prop}

/-- A tree that has grown out of another: it has all that the other has, and outside the places that
were touched its files are those of the other. -/
structure Grown (after before : FileTree) (touched : List String → Prop) : Prop
    extends after.Extends before where
  file_iff : ∀ names, ¬ touched names → ∀ content,
    after.entry? names = some (.file content) ↔ before.entry? names = some (.file content)

theorem Grown.refl (t : FileTree) (touched : List String → Prop) : t.Grown t touched :=
  ⟨Extends.refl t, fun _ _ _ => Iff.rfl⟩

theorem Grown.mono {touched' : List String → Prop} (h : after.Grown before touched)
    (hsub : ∀ names, touched names → touched' names) : after.Grown before touched' :=
  ⟨h.toExtends, fun names hnames => h.file_iff names fun htouched => hnames (hsub names htouched)⟩

theorem Grown.trans {first second third : FileTree} (h : third.Grown second touched)
    (h' : second.Grown first touched) : third.Grown first touched :=
  ⟨h.toExtends.trans h'.toExtends, fun names hnames content =>
    (h.file_iff names hnames content).trans (h'.file_iff names hnames content)⟩

/-- What stood at a path is read there again, unless it was touched. -/
theorem Grown.read_eq {path : String} (h : after.Grown before touched)
    (hlocate : before.locate path = .ok names) (hother : ¬ touched names) :
    after.read path = before.read path := by
  unfold read
  rw [hlocate, h.toExtends.locate hlocate]
  dsimp only
  cases hentry : before.entry? names with
  | none =>
    have hsome := isSome_entry?_of_locate hlocate
    rw [hentry] at hsome
    contradiction
  | some entry =>
    cases entry with
    | directory => rw [h.directory names hentry]
    | file content => rw [(h.file_iff names hother content).mpr hentry]

theorem grown_put_directory (hnone : t.entry? names = none) (touched : List String → Prop) :
    (t.put names .directory).Grown t touched where
  toExtends := extends_put (by simp [hnone]) _
  file_iff other _ content := by
    by_cases hother : other = names
    · subst hother
      have hne : other ≠ [] := by
        rintro rfl
        exact nomatch hnone
      rw [entry?_put_self hne, hnone]
      exact iff_of_false nofun nofun
    · rw [entry?_put_of_ne hother]

theorem grown_put_file (h : t.entry? names ≠ some .directory) (content : ByteArray) :
    (t.put names (.file content)).Grown t (· = names) where
  toExtends := extends_put h _
  file_iff other hother content := by rw [entry?_put_of_ne hother]

/-- A file in place of a file, or of nothing, leaves every other file where it is. -/
theorem isFile_put {path : String} (h : t.entry? names ≠ some .directory) (content : ByteArray)
    (hfile : t.isFile path = true) : (t.put names (.file content)).isFile path = true := by
  obtain ⟨old, hread⟩ := isFile_iff.mp hfile
  obtain ⟨there, hlocate, hentry⟩ := read_eq_ok_iff.mp hread
  have hplace := (extends_put h (.file content)).locate hlocate
  by_cases hthere : there = names
  · subst hthere
    have hne : there ≠ [] := by
      rintro rfl
      exact nomatch hentry
    exact isFile_iff.mpr ⟨content, read_eq_ok_iff.mpr ⟨there, hplace, entry?_put_self hne _⟩⟩
  · rw [← entry?_put_of_ne hthere (.file content)] at hentry
    exact isFile_iff.mpr ⟨old, read_eq_ok_iff.mpr ⟨there, hplace, hentry⟩⟩

/-! Making directories -/

theorem Stands.of_extends (h : after.Extends t) (hstands : t.Stands here) : after.Stands here :=
  fun place hplace => h.isSome place (hstands place hplace)

theorem grown_makeWay (touched : List String → Prop) (steps : List String)
    (hstands : t.Stands here) : (t.makeWay here steps).1.Grown t touched := by
  induction steps generalizing t here with
  | nil => exact Grown.refl t touched
  | cons piece rest ih =>
    unfold makeWay
    split
    · rename_i there hstep
      exact ih (hstands.step hstep)
    · rename_i hstep
      -- the step ends where nothing is, so the new directory takes the place of no file
      have hnone := (of_step_eq_notFound hstands hstep).2.2
      have hput := grown_put_directory hnone touched
      have hthere : (t.put (here ++ [piece]) .directory).Stands (here ++ [piece]) := by
        intro place hplace
        rcases List.prefix_concat_iff.mp hplace with rfl | hbefore
        · rw [entry?_put_self (by simp)]
          rfl
        · exact hstands.of_extends hput.toExtends place hbefore
      exact (ih hthere).trans hput
    · exact Grown.refl t touched

/-- Making directories changes no file, also where it ends early. -/
theorem grown_createDirectories (t : FileTree) (path : String) (touched : List String → Prop) :
    (t.createDirectories path).1.Grown t touched := by
  unfold createDirectories
  split
  · exact Grown.refl t touched
  · rename_i steps _
    have hgrown := grown_makeWay touched steps t.stands_root
    generalize t.makeWay [] steps = made at hgrown ⊢
    obtain ⟨after, result⟩ := made
    cases result with
    | error e => exact hgrown
    | ok names =>
      dsimp only
      split <;> exact hgrown

/-! Adding to a file -/

theorem entry?_ne_directory_of_target {path : String} (h : t.target path = .ok names) :
    t.entry? names ≠ some .directory := by
  rcases entry?_of_target h with ⟨old, hfile⟩ | hnone
  · simp [hfile]
  · simp [hnone]

theorem append_of_target {path : String} (h : t.target path = .ok names) (text : String) :
    t.append path text = .ok (t.put names (.file (t.contentAt names ++ text.toUTF8))) := by
  rw [append, h]
  rfl

/-- What is added to stands at the end of its path, and is the only file that changes. -/
theorem grown_append {path text : String} (h : t.append path text = .ok after) :
    after.Grown t (fun names => after.locate path = .ok names) ∧ after.isFile path = true := by
  unfold append at h
  cases htarget : t.target path with
  | error e =>
    rw [htarget] at h
    exact nomatch h
  | ok names =>
    rw [htarget] at h
    obtain rfl := Except.ok.inj h
    constructor
    · refine (grown_put_file (entry?_ne_directory_of_target htarget) _).mono ?_
      rintro there rfl
      exact (locate_put_of_target htarget _).2
    · exact isFile_iff.mpr ⟨_, read_put_of_target htarget _⟩

end Wiring.FileTree
