import Wiring.Proofs.Files.Tree

/-! What is left of a file system when one file is written. A path that does not lead to it reads as
before: no way through the file can be gone, so a way that can be gone with the file there and does
not end at it could be gone without. -/
namespace Wiring.FileTree

variable {t : FileTree} {names here there : List String} {content : ByteArray}

/-- What is written to is a file, or there is nothing yet. -/
theorem entry?_of_target {path : String} (h : t.target path = .ok names) :
    (∃ old, t.entry? names = some (.file old)) ∨ t.entry? names = none := by
  rcases of_target_eq_ok h with ⟨old, _, hfile⟩ |
    ⟨before, name, parent, _, _, _, _, hparent, hmissing, rfl⟩
  · exact .inl ⟨old, hfile⟩
  · rw [walk_concat, hparent] at hmissing
    exact .inr (of_step_eq_notFound (t.stands_root.foldlM hparent) hmissing).2.2

theorem write_of_target {path : String} (h : t.target path = .ok names) (text : String) :
    t.write path text = .ok (t.put names (.file text.toUTF8)) := by
  rw [write, h]
  rfl

/-- Nothing is left of an empty file that is written over. -/
theorem overwrite_of_target {path : String} (h : t.target path = .ok names)
    (hempty : t.entry? names = some (.file "".toUTF8)) (text : String) :
    t.overwrite path text = .ok (t.put names (.file text.toUTF8)) := by
  have hrest : "".toUTF8.extract text.utf8ByteSize "".toUTF8.size = ByteArray.empty :=
    ByteArray.ext (by simp)
  have hcontent : text.toUTF8 ++ "".toUTF8.extract text.utf8ByteSize "".toUTF8.size =
      text.toUTF8 := (congrArg (text.toUTF8 ++ ·) hrest).trans ByteArray.append_empty
  rw [overwrite, h, Except.map, contentAt, hempty]
  exact congrArg (fun content => Except.ok (t.put names (.file content))) hcontent

/-- A file can be written where it stands. -/
theorem target_of_file {path : String} (hplace : t.locate path = .ok names)
    (hfile : t.entry? names = some (.file content)) : t.target path = .ok names := by
  unfold target
  rw [hplace]
  dsimp only
  rw [hfile]

/-- No way leads on from a file. -/
theorem eq_of_foldlM_of_file {steps : List String} (hfile : t.entry? here = some (.file content))
    (h : steps.foldlM t.step here = .ok there) : there = here := by
  cases steps with
  | nil => exact (Except.ok.inj h).symm
  | cons piece rest =>
    rw [foldlM_step_cons] at h
    obtain ⟨next, hstep, _⟩ := exists_of_bind_eq_ok h
    have hdirectory := (of_step_eq_ok hstep).1
    simp [hfile] at hdirectory

/-- A step that does not end at a new file could be taken without it. -/
theorem step_of_step_put (hne : names ≠ []) {piece : String}
    (h : (t.put names (.file content)).step here piece = .ok there) (hthere : there ≠ names) :
    t.step here piece = .ok there := by
  have hdirectory := (of_step_eq_ok h).1
  have hhere : here ≠ names := by
    rintro rfl
    rw [entry?_put_self hne] at hdirectory
    exact nomatch hdirectory
  rw [entry?_put_of_ne hhere] at hdirectory
  unfold FileTree.step at h ⊢
  rw [entry?_put_of_ne hhere] at h
  rw [hdirectory] at h ⊢
  dsimp only at h ⊢
  split_ifs at h with hstay hup hlong hsome
  · rw [if_pos hstay, ← h]
  · rw [if_neg hstay, if_pos hup, ← h]
  · obtain rfl := Except.ok.inj h
    rw [entry?_put_of_ne hthere] at hsome
    rw [if_neg hstay, if_neg hup, if_neg hlong, if_pos hsome]

theorem foldlM_of_foldlM_put (hne : names ≠ []) {steps : List String}
    (h : steps.foldlM (t.put names (.file content)).step here = .ok there)
    (hthere : there ≠ names) : steps.foldlM t.step here = .ok there := by
  induction steps generalizing here with
  | nil => exact h
  | cons piece rest ih =>
    rw [foldlM_step_cons] at h
    obtain ⟨next, hstep, hrest⟩ := exists_of_bind_eq_ok h
    have hnext : next ≠ names := by
      rintro rfl
      exact hthere (eq_of_foldlM_of_file (entry?_put_self hne _) hrest)
    rw [foldlM_step_cons, step_of_step_put hne hstep hnext]
    exact ih hrest

/-- A path that does not lead to the file that is written leads to where it did. -/
theorem locate_put_eq_ok_iff {path other : String} (h : t.target path = .ok names)
    (hthere : there ≠ names) :
    (t.put names (.file content)).locate other = .ok there ↔ t.locate other = .ok there := by
  rcases entry?_of_target h with ⟨old, hfile⟩ | hnone
  · rw [locate_put_of_file hfile]
  have hne := (locate_put_of_target h content).1
  refine ⟨fun hplace => ?_, (extends_put (by simp [hnone]) _).locate⟩
  obtain ⟨pieces, hsteps, hwalk⟩ := exists_steps_of_locate hplace
  have hsteps' : t.steps other = .ok pieces := hsteps
  rw [locate_eq_walk hsteps']
  exact foldlM_of_foldlM_put hne hwalk hthere

/-- A path that does not lead to the file that is written reads as before. -/
theorem read_put_eq_ok_iff {path other : String} {old : ByteArray}
    (h : t.target path = .ok names)
    (hother : (t.put names (.file content)).locate other ≠ .ok names) :
    (t.put names (.file content)).read other = .ok old ↔ t.read other = .ok old := by
  rw [read_eq_ok_iff, read_eq_ok_iff]
  refine exists_congr fun there => ?_
  by_cases hthere : there = names
  · subst hthere
    refine iff_of_false (fun hplace => hother hplace.1) fun hplace => hother ?_
    rw [locate_put_of_file hplace.2]
    exact hplace.1
  · rw [locate_put_eq_ok_iff h hthere, entry?_put_of_ne hthere]

end Wiring.FileTree
