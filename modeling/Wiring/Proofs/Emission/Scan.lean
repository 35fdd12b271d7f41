import Mathlib.Data.List.TakeWhile
import Wiring.Emission.QualifiedName

/-! How a display string is read. The reader goes on by a whole name where a type may start and by
one character elsewhere. All that it keeps in mind is whether a type may start, so a text is
qualified piece by piece, wherever it is cut between names. -/
namespace Wiring.Emission

section Characters

variable {c : Char}

theorem eq_false_of_any {p : Char → Bool} {s : List Char} (h : s.any p = false) (hc : c ∈ s) :
    p c = false :=
  Bool.eq_false_iff.mpr (List.any_eq_false.mp h c hc)

theorem continuesName_of_startsName (h : startsName c = true) : continuesName c = true := by
  rcases Bool.or_eq_true_iff.mp h with halphabetic | hline
  · simp [continuesName, Text.isAlphanumeric, halphabetic]
  · simp [continuesName, hline]

theorem startsName_of_not_continuesName (h : continuesName c = false) : startsName c = false :=
  Bool.eq_false_iff.mpr fun hstarts => by simp [continuesName_of_startsName hstarts] at h

/-- The white space characters, one by one. -/
def blanks : List Char :=
  Text.blankRanges.flatMap fun (low, high) => (List.range' low (high + 1 - low)).map Char.ofNat

theorem mem_blanks (h : Text.isBlank c = true) : c ∈ blanks := by
  obtain ⟨⟨low, high⟩, hmem, hlow, hhigh⟩ := Text.mem_of_inRanges h
  apply List.mem_flatMap.mpr
  refine ⟨(low, high), hmem, List.mem_map.mpr ⟨c.toNat, ?_, Char.ofNat_toNat c⟩⟩
  simp only [List.mem_range'_1]
  omega

theorem continuesName_of_isBlank (h : Text.isBlank c = true) : continuesName c = false :=
  have hnone : blanks.any continuesName = false := by decide +kernel
  eq_false_of_any hnone (mem_blanks h)

theorem opensType_iff : opensType c = true ↔ c ∈ ['<', ',', '('] := by
  simp [opensType, or_assoc]

theorem continuesName_of_opensType (h : opensType c = true) : continuesName c = false :=
  have hnone : ['<', ',', '('].any continuesName = false := by decide +kernel
  eq_false_of_any hnone (opensType_iff.mp h)

theorem startsName_of_opensType (h : opensType c = true) : startsName c = false :=
  startsName_of_not_continuesName (continuesName_of_opensType h)

theorem opensType_of_continuesName (h : continuesName c = true) : opensType c = false :=
  Bool.eq_false_iff.mpr fun hopens => by simp [continuesName_of_opensType hopens] at h

theorem typeMayStartAfter_of_continuesName (h : continuesName c = true) (atStart : Bool) :
    typeMayStartAfter atStart c = false := by
  have hblank : Text.isBlank c = false :=
    Bool.eq_false_iff.mpr fun hblank => by simp [continuesName_of_isBlank hblank] at h
  simp [typeMayStartAfter, hblank, opensType_of_continuesName h]

end Characters

section Names

variable {name after : List Char} {atStart : Bool} {c : Char}

/-- A dotted name. -/
structure IsName (name : List Char) : Prop where
  starts : ∃ c ∈ name.head?, startsName c = true
  continues : ∀ c ∈ name, continuesName c = true

/-- A name before `after` does not go on into it. -/
def EndsName (after : List Char) : Prop := ∀ c ∈ after.head?, continuesName c = false

theorem IsName.exists_cons (hname : IsName name) :
    ∃ c rest, name = c :: rest ∧ startsName c = true := by
  obtain ⟨c, hc, hstarts⟩ := hname.starts
  obtain ⟨rest, rfl⟩ := List.head?_eq_some_iff.mp hc
  exact ⟨c, rest, rfl, hstarts⟩

theorem IsName.ne_nil (hname : IsName name) : name ≠ [] := by
  obtain ⟨c, rest, rfl, _⟩ := hname.exists_cons
  simp

theorem takeWhile_name_append (hname : IsName name) (hends : EndsName after) :
    (name ++ after).takeWhile continuesName = name := by
  rw [List.takeWhile_append_of_pos hname.continues]
  cases after with
  | nil => simp
  | cons c rest => simp [hends c rfl]

theorem dropWhile_name_append (hname : IsName name) (hends : EndsName after) :
    (name ++ after).dropWhile continuesName = after := by
  rw [List.dropWhile_append_of_pos hname.continues]
  cases after with
  | nil => simp
  | cons c rest => simp [hends c rfl]

@[simp] theorem qualifyFrom_nil (atStart : Bool) : qualifyFrom atStart [] = [] := by
  rw [qualifyFrom]

theorem qualifyFrom_cons (h : (atStart && startsName c) = false) (rest : List Char) :
    qualifyFrom atStart (c :: rest) = c :: qualifyFrom (typeMayStartAfter atStart c) rest := by
  rw [qualifyFrom, if_neg (by simp [h])]

theorem qualifyFrom_false_cons (c : Char) (rest : List Char) :
    qualifyFrom false (c :: rest) = c :: qualifyFrom (opensType c) rest := by
  simp [qualifyFrom_cons, typeMayStartAfter]

theorem qualifyFrom_name (hname : IsName name) (hends : EndsName after) :
    qualifyFrom true (name ++ after) = qualifyName name after ++ qualifyFrom false after := by
  have htake := takeWhile_name_append hname hends
  have hdrop := dropWhile_name_append hname hends
  obtain ⟨c, rest, rfl, hstarts⟩ := hname.exists_cons
  have hcontinues : continuesName c = true := hname.continues c List.mem_cons_self
  rw [List.cons_append] at *
  rw [List.takeWhile_cons_of_pos hcontinues] at htake
  rw [List.dropWhile_cons_of_pos hcontinues] at hdrop
  rw [qualifyFrom, if_pos (by simpa using hstarts), htake, hdrop]

/-- The names that get an anchor. -/
theorem qualifyName_eq_ite (name after : List Char) :
    qualifyName name after =
      if isAliasBefore after = false ∧ String.ofList name ∉ keywordTypeNames then
        globalAlias.toList ++ name
      else name := by
  rw [qualifyName]
  by_cases halias : isAliasBefore after = true <;>
    by_cases hkeyword : String.ofList name ∈ keywordTypeNames <;> simp [halias, hkeyword]

theorem isName_takeWhile (h : startsName c = true) (rest : List Char) :
    IsName (c :: rest.takeWhile continuesName) where
  starts := ⟨c, rfl, h⟩
  continues := by
    intro d hd
    rcases List.mem_cons.mp hd with rfl | hd
    · exact continuesName_of_startsName h
    · exact List.mem_takeWhile_imp hd

theorem endsName_dropWhile (s : List Char) : EndsName (s.dropWhile continuesName) := by
  intro c hc
  have hnot := List.head?_dropWhile_not continuesName s
  rw [Option.mem_def.mp hc] at hnot
  simpa using hnot

/-- Induction along the reading of a text. -/
@[elab_as_elim]
theorem scan_induction {motive : Bool → List Char → Prop} (nil : ∀ atStart, motive atStart [])
    (name : ∀ name after, IsName name → EndsName after → motive false after →
      motive true (name ++ after))
    (char : ∀ atStart c rest, (atStart && startsName c) = false →
      motive (typeMayStartAfter atStart c) rest → motive atStart (c :: rest))
    (atStart : Bool) (s : List Char) : motive atStart s := by
  induction atStart, s using qualifyFrom.induct with
  | case1 atStart => exact nil atStart
  | case2 atStart c rest h ih =>
    obtain ⟨rfl, hstarts⟩ := Bool.and_eq_true_iff.mp h
    have hscan := name _ _ (isName_takeWhile hstarts rest) (endsName_dropWhile rest) ih
    rwa [List.cons_append, List.takeWhile_append_dropWhile] at hscan
  | case3 atStart c rest h ih => exact char atStart c rest (by simpa using h) ih

end Names

section Pieces

variable {name s t : List Char} {c : Char}

/-- Whether a type may start after a text, if it could (`atStart`) before it. -/
def typeMayStart (atStart : Bool) (s : List Char) : Bool := s.foldl typeMayStartAfter atStart

theorem typeMayStart_append (atStart : Bool) (s t : List Char) :
    typeMayStart atStart (s ++ t) = typeMayStart (typeMayStart atStart s) t :=
  List.foldl_append

theorem typeMayStart_concat (atStart : Bool) (s : List Char) (c : Char) :
    typeMayStart atStart (s ++ [c]) = typeMayStartAfter (typeMayStart atStart s) c :=
  typeMayStart_append atStart s [c]

theorem typeMayStart_of_continuesName (hne : s ≠ []) (h : ∀ c ∈ s, continuesName c = true)
    (atStart : Bool) : typeMayStart atStart s = false := by
  rw [← List.dropLast_concat_getLast hne, typeMayStart_concat]
  exact typeMayStartAfter_of_continuesName (h _ (List.getLast_mem hne)) _

theorem typeMayStart_name (hname : IsName name) (atStart : Bool) :
    typeMayStart atStart name = false :=
  typeMayStart_of_continuesName hname.ne_nil hname.continues atStart

/-- A name before `t` neither goes on into it nor is an alias because of it. -/
def Detached (t : List Char) : Prop := ∀ c ∈ t.head?, continuesName c = false ∧ c ≠ ':'

theorem detached_nil : Detached [] := by simp [Detached]

theorem detached_cons (h : continuesName c = false ∧ c ≠ ':') (rest : List Char) :
    Detached (c :: rest) := by
  intro d hd
  obtain rfl : c = d := Option.some.inj hd
  exact h

theorem isAliasBefore_iff : isAliasBefore s = true ↔ s.take 2 = [':', ':'] := by
  rw [isAliasBefore, List.isPrefixOf_iff_prefix, List.prefix_iff_eq_take]
  exact eq_comm

theorem isAliasBefore_append (h : Detached t) (s : List Char) :
    isAliasBefore (s ++ t) = isAliasBefore s := by
  have hcolon : ∀ c ∈ t.head?, c ≠ ':' := fun c hc => (h c hc).2
  rw [Bool.eq_iff_iff, isAliasBefore_iff, isAliasBefore_iff]
  match s, t with
  | s, [] => simp
  | [], c :: rest => simp [hcolon c rfl]
  | [d], c :: rest => simp [hcolon c rfl]
  | d :: e :: rest, t => simp

theorem endsName_append {after : List Char} (hends : EndsName after) (h : Detached t) :
    EndsName (after ++ t) := by
  intro c hc
  cases after with
  | nil => exact (h c hc).1
  | cons d rest => exact hends c hc

/-- What comes after the cut is read as if it came after any other text that leaves the reader in
the same state. -/
theorem qualifyFrom_append (h : Detached t) (atStart : Bool) (s : List Char) :
    qualifyFrom atStart (s ++ t) =
      qualifyFrom atStart s ++ qualifyFrom (typeMayStart atStart s) t := by
  induction atStart, s using scan_induction with
  | nil atStart => simp [typeMayStart]
  | name name after hname hends ih =>
    rw [List.append_assoc, qualifyFrom_name hname (endsName_append hends h),
      qualifyFrom_name hname hends, ih, typeMayStart_append, typeMayStart_name hname, qualifyName,
      isAliasBefore_append h, ← qualifyName, List.append_assoc]
  | char atStart c rest hnot ih =>
    rw [List.cons_append, qualifyFrom_cons hnot, ih, qualifyFrom_cons hnot]
    rfl

theorem qualifyFrom_opening (h : opensType c = true) (atStart : Bool) (s : List Char) :
    qualifyFrom atStart (c :: s) = c :: qualifyFrom true s := by
  rw [qualifyFrom_cons (by simp [startsName_of_opensType h])]
  simp [typeMayStartAfter, h]

theorem qualifyFrom_plain (h : ∀ c ∈ s, opensType c = false) (t : List Char) :
    qualifyFrom false (s ++ t) = s ++ qualifyFrom false t := by
  induction s with
  | nil => rfl
  | cons c rest ih =>
    rw [List.cons_append, qualifyFrom_false_cons, h c List.mem_cons_self,
      ih fun d hd => h d (List.mem_cons_of_mem c hd)]
    rfl

theorem typeMayStart_plain (h : ∀ c ∈ s, opensType c = false) : typeMayStart false s = false := by
  induction s with
  | nil => rfl
  | cons c rest ih =>
    have hstate : typeMayStartAfter false c = false := h c List.mem_cons_self
    rw [typeMayStart, List.foldl_cons, hstate]
    exact ih fun d hd => h d (List.mem_cons_of_mem c hd)

end Pieces

section Aliases

variable {name qualifier : List Char}

theorem endsName_colons (s : List Char) : EndsName ("::".toList ++ s) := by
  intro c hc
  obtain rfl : ':' = c := Option.some.inj hc
  decide +kernel

theorem opensType_colons_name (hname : IsName name) :
    ∀ c ∈ "::".toList ++ name, opensType c = false := by
  intro c hc
  rcases List.mem_append.mp hc with hcolon | hmem
  · exact eq_false_of_any (by decide) hcolon
  · exact opensType_of_continuesName (hname.continues c hmem)

/-- An alias and the name behind it are left as they are. -/
theorem qualifyFrom_aliased (hqualifier : IsName qualifier) (hname : IsName name) (t : List Char) :
    qualifyFrom true (qualifier ++ ("::".toList ++ name ++ t)) =
      qualifier ++ ("::".toList ++ name ++ qualifyFrom false t) := by
  have hends : EndsName ("::".toList ++ name ++ t) := by
    rw [List.append_assoc]
    exact endsName_colons (name ++ t)
  have halias : isAliasBefore ("::".toList ++ name ++ t) = true := by
    rw [isAliasBefore_iff]
    rfl
  rw [qualifyFrom_name hqualifier hends, qualifyName_eq_ite,
    if_neg fun h => Bool.eq_false_iff.mp h.1 halias, qualifyFrom_plain (opensType_colons_name hname)]

end Aliases
end Wiring.Emission
