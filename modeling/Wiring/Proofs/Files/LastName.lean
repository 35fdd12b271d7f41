import Mathlib.Tactic.SplitIfs
import Wiring.Files.Path
import Wiring.Proofs.Files.Tree

/-! The last name of a path is the last name of what stands there. -/
namespace Wiring

theorem Text.pieces_append_separator (separator : Char) (first rest : List Char) :
    pieces separator (first ++ separator :: rest) =
      pieces separator first ++ pieces separator rest := by
  induction first with
  | nil => simp [pieces]
  | cons c cs ih =>
    by_cases hc : c = separator
    · simp only [List.cons_append, pieces, if_pos hc, ih]
    · obtain ⟨head, others, hpieces⟩ := List.exists_cons_of_ne_nil (pieces_ne_nil separator cs)
      simp only [List.cons_append, pieces, if_neg hc, ih, hpieces]

theorem Text.pieces_of_notMem {separator : Char} {cs : List Char} (h : separator ∉ cs) :
    pieces separator cs = [cs] := by
  induction cs with
  | nil => rfl
  | cons c cs ih =>
    rw [List.mem_cons, not_or] at h
    unfold pieces
    rw [if_neg (Ne.symm h.1), ih h.2]

/-- Nothing that satisfies a condition comes after the last that does. -/
theorem exists_of_getLast?_filter {α : Type} {p : α → Bool} {xs : List α} {x : α}
    (h : (xs.filter p).getLast? = some x) :
    p x = true ∧ ∃ before after, xs = before ++ x :: after ∧ ∀ y ∈ after, p y = false := by
  rw [List.getLast?_eq_head?_reverse, ← List.filter_reverse, List.head?_filter,
    List.find?_eq_some_iff_append] at h
  obtain ⟨hx, after, before, hxs, hafter⟩ := h
  refine ⟨hx, before.reverse, after.reverse, ?_, ?_⟩
  · rw [← List.reverse_reverse xs, hxs]
    simp
  · intro y hy
    simpa using hafter y (List.mem_reverse.mp hy)

namespace Path

theorem lastName?_eq_some_iff {path name : String} :
    lastName? path = some name ↔ (names path).getLast? = some name ∧ name ≠ ".." := by
  unfold lastName?
  cases (names path).getLast? with
  | none => simp
  | some last =>
    by_cases hlast : last = ".."
    · simp [hlast]
      rintro rfl
      simp
    · simp [hlast]
      rintro rfl
      exact hlast

end Path

namespace FileTree

variable {t : FileTree} {here there names : List String} {path name : String}

theorem eq_of_step_idle {piece : String} (hidle : piece = "" ∨ piece = ".")
    (h : t.step here piece = .ok there) : there = here := by
  unfold step at h
  split at h
  · exact nomatch h
  · exact nomatch h
  · rw [if_pos (by simpa using hidle)] at h
    exact (Except.ok.inj h).symm

theorem eq_of_step_name (hname : name ≠ "") (hdot : name ≠ ".") (hdots : name ≠ "..")
    (h : t.step here name = .ok there) : there = here ++ [name] := by
  unfold step at h
  split at h
  · exact nomatch h
  · exact nomatch h
  · rw [if_neg (by simp [hname, hdot]), if_neg (by simp [hdots])] at h
    split_ifs at h with hlong hsome
    exact (Except.ok.inj h).symm

theorem eq_of_foldlM_idle {steps : List String} (hidle : ∀ piece ∈ steps, piece = "" ∨ piece = ".")
    (h : steps.foldlM t.step here = .ok there) : there = here := by
  induction steps generalizing here with
  | nil => exact (Except.ok.inj h).symm
  | cons piece rest ih =>
    rw [foldlM_step_cons] at h
    obtain ⟨next, hstep, hrest⟩ := exists_of_bind_eq_ok h
    rw [ih (fun other hother => hidle other (List.mem_cons_of_mem _ hother)) hrest]
    exact eq_of_step_idle (hidle piece List.mem_cons_self) hstep

/-- The steps of a path end with its names. -/
theorem names_suffix_of_steps {pieces : List String} (h : t.steps path = .ok pieces) :
    ∃ above, pieces.filter (fun name => name != "" && name != ".") = above ++ Path.names path := by
  unfold steps at h
  unfold Path.names
  split_ifs at h
  split at h
  · exact nomatch h
  · exact nomatch h
  · rename_i rest hsplit _
    -- an absolute path has an empty piece before the root, which is no name
    obtain rfl := Except.ok.inj h
    exact ⟨[], by simp_all⟩
  · obtain rfl := Except.ok.inj h
    exact ⟨_, List.filter_append ..⟩

theorem getLast?_of_locate (h : t.locate path = .ok names) (hname : Path.lastName? path = some name) :
    names.getLast? = some name := by
  obtain ⟨hlast, hdots⟩ := Path.lastName?_eq_some_iff.mp hname
  obtain ⟨pieces, hsteps, hwalk⟩ := exists_steps_of_locate h
  obtain ⟨above, habove⟩ := names_suffix_of_steps hsteps
  have hfiltered : (pieces.filter fun name => name != "" && name != ".").getLast? = some name := by
    rw [habove, List.getLast?_append, hlast, Option.some_or]
  obtain ⟨hproper, before, after, rfl, hafter⟩ := exists_of_getLast?_filter hfiltered
  obtain ⟨hne, hdot⟩ : name ≠ "" ∧ name ≠ "." := by simpa using hproper
  -- the way goes to the parent, takes the name, and stays there for whatever follows
  unfold walk at hwalk
  rw [List.foldlM_append] at hwalk
  obtain ⟨parent, _, hrest⟩ := exists_of_bind_eq_ok hwalk
  rw [foldlM_step_cons] at hrest
  obtain ⟨next, hstep, hidle⟩ := exists_of_bind_eq_ok hrest
  obtain rfl := eq_of_step_name hne hdot hdots hstep
  rw [eq_of_foldlM_idle (fun piece hpiece => ?_) hidle, List.getLast?_concat]
  exact Decidable.or_iff_not_imp_left.mpr fun hother => by simpa [hother] using hafter piece hpiece

end FileTree
end Wiring
