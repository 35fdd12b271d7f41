import Wiring.Command.Log
import Wiring.Proofs.Files.LastName

/-! The name of a log file ends in a date, so it is never that of a model. -/
namespace Wiring

theorem Text.notMem_of_mem_pieces {separator : Char} {cs piece : List Char}
    (h : piece ∈ pieces separator cs) : separator ∉ piece := by
  induction cs generalizing piece with
  | nil =>
    obtain rfl := List.mem_singleton.mp h
    exact List.not_mem_nil
  | cons c cs ih =>
    by_cases hc : c = separator
    · simp only [pieces, if_pos hc, List.mem_cons] at h
      rcases h with rfl | h
      · exact List.not_mem_nil
      · exact ih h
    · obtain ⟨head, others, hpieces⟩ := List.exists_cons_of_ne_nil (pieces_ne_nil separator cs)
      simp only [pieces, if_neg hc, hpieces, List.mem_cons] at h ih
      rcases h with rfl | h
      · rw [List.mem_cons, not_or]
        exact ⟨Ne.symm hc, ih (.inl rfl)⟩
      · exact ih (.inr h)

namespace Path

theorem slash_notMem_of_names {path name : String} (h : name ∈ names path) :
    '/' ∉ name.toList := by
  unfold names Text.splitString at h
  obtain ⟨piece, hpiece, rfl⟩ := List.mem_map.mp (List.mem_filter.mp h).1
  rw [String.toList_ofList]
  exact Text.notMem_of_mem_pieces hpiece

theorem mem_of_mem_nameStem {name : String} {c : Char} (h : c ∈ (nameStem name).toList) :
    c ∈ name.toList := by
  unfold nameStem at h
  split at h
  · rw [String.toList_ofList] at h
    exact List.mem_of_mem_take h
  · exact h

theorem slash_notMem_of_stem {path stem : String} (h : stem? path = some stem) :
    '/' ∉ stem.toList := by
  obtain ⟨name, hname, rfl⟩ := Option.map_eq_some_iff.mp h
  have hmem := List.mem_of_getLast? (lastName?_eq_some_iff.mp hname).1
  exact fun hslash => slash_notMem_of_names hmem (mem_of_mem_nameStem hslash)

/-- A proper name after a slash is the last name. -/
theorem lastName?_append {above name : String} (hslash : '/' ∉ name.toList) (hne : name ≠ "")
    (hdot : name ≠ ".") (hdots : name ≠ "..") :
    lastName? (above ++ "/" ++ name) = some name := by
  rw [lastName?_eq_some_iff]
  refine ⟨?_, hdots⟩
  have hsplit : Text.splitString '/' (above ++ "/" ++ name) =
      Text.splitString '/' above ++ [name] := by
    have hchars : (above ++ "/" ++ name).toList = above.toList ++ '/' :: name.toList := by simp
    unfold Text.splitString
    rw [hchars, Text.pieces_append_separator, Text.pieces_of_notMem hslash]
    simp
  unfold names
  rw [hsplit, List.filter_append]
  simp [hne, hdot]

/-- What follows a point is the extension, if there is one. -/
theorem nameExtension?_append {stem extension : String} (h : '.' ∉ extension.toList) :
    nameExtension? (stem ++ "." ++ extension) = none ∨
      nameExtension? (stem ++ "." ++ extension) = some extension := by
  have hchars : (stem ++ "." ++ extension).toList = stem.toList ++ '.' :: extension.toList := by
    simp
  unfold nameExtension?
  rw [hchars, Text.pieces_append_separator, Text.pieces_of_notMem h, List.reverse_concat]
  cases (Text.pieces '.' stem.toList).reverse with
  | nil => exact .inl rfl
  | cons before others =>
    dsimp only
    split
    · exact .inl rfl
    · exact .inr (by rw [String.ofList_toList])

end Path

/-- A character of a date is no letter, and none that a path gives a meaning. -/
theorem ne_of_isDate {d : Char} (h : d.isDigit = true ∨ d = '-') :
    d ≠ '.' ∧ d ≠ '/' ∧ d ≠ 'j' ∧ d ≠ 'y' := by
  rcases h with h | rfl
  · refine ⟨?_, ?_, ?_, ?_⟩ <;> (rintro rfl; revert h; decide)
  · decide

theorem toLower_of_isDate {d : Char} (h : d.isDigit = true ∨ d = '-') :
    d.toNat < 0x80 ∧ d.toLower = d := by
  rcases h with h | rfl
  · have hbound : d.toNat ≤ 57 := by
      simp only [Char.isDigit, ge_iff_le, Bool.and_eq_true, decide_eq_true_eq,
        UInt32.le_iff_toNat_le] at h
      exact h.2
    refine ⟨by omega, dif_neg fun hupper => ?_⟩
    have hletter : 65 ≤ d.toNat := UInt32.le_iff_toNat_le.mp hupper.1
    omega
  · decide

/-- A date begins in lower case as it does. -/
theorem lowerChars_of_isDate {d : Char} (h : d.isDigit = true ∨ d = '-') (rest : List Char) :
    ∃ lower, Text.lowerChars [] (d :: rest) = d :: lower := by
  obtain ⟨hcode, hlower⟩ := toLower_of_isDate h
  have hsigma : d ≠ '\u03a3' := by
    rintro rfl
    exact absurd hcode (by decide)
  refine ⟨Text.lowerChars [d] rest, ?_⟩
  rw [Text.lowerChars, if_neg hsigma, Text.lowerChar, if_pos hcode, hlower]
  rfl

namespace LogDay

variable (day : LogDay)

theorem exists_toList : ∃ c cs, day.text.toList = c :: cs ∧
    ∀ d ∈ day.text.toList, d.isDigit = true ∨ d = '-' := by
  have h := day.isDate
  unfold isDateText at h
  cases hchars : day.text.toList with
  | nil =>
    rw [hchars] at h
    exact nomatch h
  | cons c cs =>
    rw [hchars] at h
    exact ⟨c, cs, rfl, by simpa using h⟩

/-- No model has the extension of a log file. -/
theorem lookup_modelExtensions :
    Path.modelExtensions.lookup (Text.toLower day.text) = none := by
  obtain ⟨c, cs, hchars, hdate⟩ := day.exists_toList
  have hc : c.isDigit = true ∨ c = '-' := hdate c (by rw [hchars]; exact List.mem_cons_self)
  obtain ⟨rest, hrest⟩ := lowerChars_of_isDate hc cs
  have hlower : (Text.toLower day.text).toList = c :: rest := by
    rw [Text.toLower, hchars, hrest, String.toList_ofList]
  obtain ⟨_, _, hj, hy⟩ := ne_of_isDate hc
  have hheads : ∀ extension ∈ Path.modelExtensions, extension.1.toList.head? ≠ some c := by
    simp [Path.modelExtensions, hj.symm, hy.symm]
  refine List.lookup_eq_none_iff.mpr fun extension hextension => bne_iff_ne.mpr fun heq => ?_
  rw [heq] at hlower
  exact hheads extension hextension (by rw [hlower]; rfl)

/-- What ends in a date is no text that can only end in a point. -/
theorem append_ne {text : String} (htext : ∀ d, text.toList.getLast? = some d → d = '.')
    (stem : String) : stem ++ "." ++ day.text ≠ text := by
  rintro rfl
  obtain ⟨c, cs, hchars, hdate⟩ := day.exists_toList
  have hlast : day.text.toList.getLast? = some (day.text.toList.getLast (by simp [hchars])) :=
    List.getLast?_eq_some_getLast _
  have hpoint := htext _ (by rw [String.toList_append, List.getLast?_append, hlast, Option.some_or])
  exact (ne_of_isDate (hdate _ (List.getLast_mem _))).1 hpoint

end LogDay

namespace LoggingConfig

variable {c : LoggingConfig} {day : LogDay} {place : LogPlace}

theorem slash_notMem_stem (path : String) :
    '/' ∉ ((Path.stem? path).getD defaultStem).toList := by
  cases hstem : Path.stem? path with
  | none => decide
  | some stem => exact Path.slash_notMem_of_stem hstem

theorem lastName?_of_place (h : c.place? day = some place) :
    Path.lastName? place.path = some place.name ∧
      (Path.nameExtension? place.name = none ∨ Path.nameExtension? place.name = some day.text) := by
  obtain ⟨path, _, rfl⟩ := Option.map_eq_some_iff.mp h
  obtain ⟨_, _, _, hdate⟩ := day.exists_toList
  have hslash : '/' ∉ ((Path.stem? path).getD defaultStem ++ "." ++ day.text).toList := by
    simp only [String.toList_append, List.mem_append, not_or]
    exact ⟨⟨slash_notMem_stem path, by decide⟩, fun hmem => (ne_of_isDate (hdate _ hmem)).2.1 rfl⟩
  have hpoint : '.' ∉ day.text.toList := fun hmem => (ne_of_isDate (hdate _ hmem)).1 rfl
  exact ⟨Path.lastName?_append hslash (day.append_ne (by simp) _) (day.append_ne (by simp) _)
    (day.append_ne (by simp) _), Path.nameExtension?_append hpoint⟩

/-- A model has a last name, and no log file has that name. -/
theorem exists_lastName?_of_ofPath {path : String} {format : DocumentFormat}
    (h : c.place? day = some place) (hformat : DocumentFormat.ofPath path = .ok format) :
    ∃ name, Path.lastName? path = some name ∧ name ≠ place.name := by
  unfold DocumentFormat.ofPath Path.extension? at hformat
  cases hname : Path.lastName? path with
  | none =>
    rw [hname] at hformat
    exact nomatch hformat
  | some name =>
    refine ⟨name, rfl, ?_⟩
    rintro rfl
    rw [hname, Option.bind_some] at hformat
    -- the log file has its date for an extension, or none, and a model has another
    rcases (lastName?_of_place h).2 with hextension | hextension
    · rw [hextension] at hformat
      exact nomatch hformat
    · rw [hextension, Option.bind_some, day.lookup_modelExtensions] at hformat
      exact nomatch hformat

/-- A path with the extension of a model leads to no log file. -/
theorem ne_of_locate {tree : FileTree} {path : String} {names : List String}
    {format : DocumentFormat} (h : c.place? day = some place)
    (hformat : DocumentFormat.ofPath path = .ok format) (hlocate : tree.locate path = .ok names) :
    tree.locate place.path ≠ .ok names := by
  intro hlog
  obtain ⟨name, hname, hne⟩ := exists_lastName?_of_ofPath h hformat
  have hlast := FileTree.getLast?_of_locate hlocate hname
  rw [FileTree.getLast?_of_locate hlog (lastName?_of_place h).1] at hlast
  exact hne (Option.some.inj hlast).symm

end LoggingConfig
end Wiring
