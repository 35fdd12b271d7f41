import Mathlib.Data.Finset.Filter
import Mathlib.Data.Finset.Range
import Wiring.Proofs.Emission.Scan

/-! What qualification adds to a text, whatever the text. Anchors are inserted and nothing else
changes: one before each name where a type may start, unless the name is an alias or a keyword. A
text that has its anchors gets no more of them. -/
namespace Wiring.Emission

variable {name after s : List Char}

section Repetition

theorem head?_qualifyFrom_false (s : List Char) : (qualifyFrom false s).head? = s.head? := by
  cases s <;> simp [qualifyFrom_false_cons]

theorem isAliasBefore_qualifyFrom_false (s : List Char) :
    isAliasBefore (qualifyFrom false s) = isAliasBefore s := by
  rw [Bool.eq_iff_iff, isAliasBefore_iff, isAliasBefore_iff]
  match s with
  | [] => simp
  | [c] => simp [qualifyFrom_false_cons]
  | c :: d :: rest =>
    by_cases hc : c = ':'
    · have hopens : opensType ':' = false := by decide
      simp [hc, qualifyFrom_false_cons, hopens]
    · simp [hc, qualifyFrom_false_cons]

/-- An anchor is an alias. -/
theorem qualifyFrom_anchored (hname : IsName name) (t : List Char) :
    qualifyFrom true (globalAlias.toList ++ name ++ t) =
      globalAlias.toList ++ name ++ qualifyFrom false t := by
  have hglobal : IsName "global".toList :=
    ⟨⟨'g', by decide +kernel⟩, List.all_eq_true.mp (by decide +kernel)⟩
  have hsplit : globalAlias.toList = "global".toList ++ "::".toList := by decide
  simpa only [hsplit, List.append_assoc] using qualifyFrom_aliased hglobal hname t

theorem qualifyFrom_qualifyFrom (atStart : Bool) (s : List Char) :
    qualifyFrom atStart (qualifyFrom atStart s) = qualifyFrom atStart s := by
  induction atStart, s using scan_induction with
  | nil atStart => simp
  | name name after hname hends ih =>
    have hends' : EndsName (qualifyFrom false after) := by
      rwa [EndsName, head?_qualifyFrom_false]
    rw [qualifyFrom_name hname hends, qualifyName_eq_ite]
    split
    · rw [qualifyFrom_anchored hname, ih]
    · rename_i hkept
      rw [qualifyFrom_name hname hends', ih, qualifyName_eq_ite, isAliasBefore_qualifyFrom_false,
        if_neg hkept]
  | char atStart c rest hnot ih =>
    rw [qualifyFrom_cons hnot, qualifyFrom_cons hnot, ih]

end Repetition

section Places

/-- A type may start after `before`, which is the start of the text or ends in `<`, `,` or `(`,
white space apart. -/
def AtTypeStart (before : List Char) : Prop :=
  ∃ lead gap, before = lead ++ gap ∧ (∀ c ∈ gap, Text.isBlank c = true) ∧
    ∀ c ∈ lead.getLast?, opensType c = true

/-- `name` stands between `before` and `after` and goes on into neither. -/
structure WholeName (before name after : List Char) : Prop where
  isName : IsName name
  begins : ∀ c ∈ before.getLast?, continuesName c = false
  ends : EndsName after

/-- At a position of a text, a type starts with a name that is neither an alias nor a keyword. -/
def LacksAnchor (text : List Char) (position : Nat) : Prop :=
  ∃ before name after, text = before ++ name ++ after ∧ before.length = position ∧
    AtTypeStart before ∧ WholeName before name after ∧
    isAliasBefore after = false ∧ String.ofList name ∉ keywordTypeNames

variable {before : List Char}

theorem typeMayStart_iff (before : List Char) :
    typeMayStart true before = true ↔ AtTypeStart before := by
  induction before using List.reverseRecOn with
  | nil => simp [typeMayStart, AtTypeStart]
  | append_singleton before c ih =>
    rw [typeMayStart_concat, typeMayStartAfter, Bool.or_eq_true, Bool.and_eq_true, ih]
    constructor
    · rintro (⟨⟨lead, gap, rfl, hgap, hlead⟩, hblank⟩ | hopens)
      · refine ⟨lead, gap ++ [c], by simp, ?_, hlead⟩
        simpa [or_imp, forall_and] using ⟨hgap, hblank⟩
      · exact ⟨before ++ [c], [], by simp, by simp, by simpa using hopens⟩
    · rintro ⟨lead, gap, heq, hgap, hlead⟩
      -- the last character belongs to the white space, or else to the text before it
      induction gap using List.reverseRecOn with
      | nil =>
        rw [List.append_nil] at heq
        exact .inr (hlead c (by simp [← heq]))
      | append_singleton gap d _ =>
        rw [← List.append_assoc] at heq
        obtain ⟨rfl, hd⟩ := List.append_inj' heq rfl
        obtain rfl : c = d := by simpa using hd
        exact .inl ⟨⟨lead, gap, rfl, fun e he => hgap e (by simp [he]), hlead⟩, hgap c (by simp)⟩

theorem begins_of_typeMayStart (h : typeMayStart true before = true) :
    ∀ c ∈ before.getLast?, continuesName c = false := by
  intro c hc
  obtain ⟨lead, rfl⟩ := List.getLast?_eq_some_iff.mp hc
  apply Bool.eq_false_iff.mpr
  intro hcontinues
  rw [typeMayStart_concat, typeMayStartAfter_of_continuesName hcontinues] at h
  contradiction

theorem lacksAnchor_append_iff (before s : List Char) :
    LacksAnchor (before ++ s) before.length ↔
      typeMayStart true before = true ∧ ∃ name after, s = name ++ after ∧ IsName name ∧
        EndsName after ∧ isAliasBefore after = false ∧ String.ofList name ∉ keywordTypeNames := by
  constructor
  · rintro ⟨before', name, after, heq, hlength, hstart, hwhole, hrest⟩
    rw [List.append_assoc] at heq
    obtain ⟨rfl, rfl⟩ := List.append_inj heq hlength.symm
    exact ⟨(typeMayStart_iff before).mpr hstart,
      name, after, rfl, hwhole.isName, hwhole.ends, hrest⟩
  · rintro ⟨hstart, name, after, rfl, hname, hends, hrest⟩
    exact ⟨before, name, after, (List.append_assoc ..).symm, rfl,
      (typeMayStart_iff before).mp hstart, ⟨hname, begins_of_typeMayStart hstart, hends⟩, hrest⟩

/-- A text determines the name that it begins with. -/
theorem lacksAnchor_name_iff (hstart : typeMayStart true before = true) (hname : IsName name)
    (hends : EndsName after) :
    LacksAnchor (before ++ (name ++ after)) before.length ↔
      isAliasBefore after = false ∧ String.ofList name ∉ keywordTypeNames := by
  rw [lacksAnchor_append_iff]
  constructor
  · rintro ⟨_, name', after', heq, hname', hends', hrest⟩
    have htake := takeWhile_name_append hname hends
    have hdrop := dropWhile_name_append hname hends
    rw [heq, takeWhile_name_append hname' hends'] at htake
    rw [heq, dropWhile_name_append hname' hends'] at hdrop
    rwa [← htake, ← hdrop]
  · exact fun hrest => ⟨hstart, name, after, rfl, hname, hends, hrest⟩

theorem not_lacksAnchor_inside (hname : IsName name) {position : Nat}
    (hlt : before.length < position) (hle : position < before.length + name.length)
    (s : List Char) :
    ¬ LacksAnchor (before ++ (name ++ s)) position := by
  obtain ⟨k, rfl⟩ := Nat.exists_eq_add_of_le hlt.le
  have hsplit : before ++ (name ++ s) = before ++ name.take k ++ (name.drop k ++ s) := by
    rw [List.append_assoc, ← List.append_assoc (name.take k), List.take_append_drop]
  have hlength : before.length + k = (before ++ name.take k).length := by
    simp
    omega
  have hinside : name.take k ≠ [] := by
    simp [hname.ne_nil]
    omega
  rw [hsplit, hlength, lacksAnchor_append_iff, typeMayStart_append,
    typeMayStart_of_continuesName hinside fun c hc => hname.continues c (List.mem_of_mem_take hc)]
  simp

end Places

section Insertion

/-- A character with its position, behind `inserted` if the position is one of those given. -/
def withInserted (inserted : List Char) (positions : Finset Nat) : Char × Nat → List Char :=
  fun (c, position) => if position ∈ positions then inserted ++ [c] else [c]

/-- `s` with `inserted` before the characters at the given positions. -/
def insertBefore (inserted : List Char) (positions : Finset Nat) (s : List Char) : List Char :=
  s.zipIdx.flatMap (withInserted inserted positions)

variable {inserted : List Char} {positions : Finset Nat}

theorem flatMap_withInserted_eq_self {offset : Nat}
    (h : ∀ position, offset ≤ position → position < offset + s.length → position ∉ positions) :
    (s.zipIdx offset).flatMap (withInserted inserted positions) = s := by
  induction s generalizing offset with
  | nil => rfl
  | cons c rest ih =>
    have hrest : (rest.zipIdx (offset + 1)).flatMap (withInserted inserted positions) = rest :=
      ih fun position hge hlt => h position (by omega) (by simp; omega)
    rw [List.zipIdx_cons, List.flatMap_cons, hrest, withInserted,
      if_neg (h offset (Nat.le_refl offset) (by simp))]
    rfl

/-- The induction goes along the reading; `before` is what has been read. -/
theorem qualifyFrom_eq_flatMap (before s : List Char)
    (h : ∀ position, before.length ≤ position →
      (position ∈ positions ↔ LacksAnchor (before ++ s) position)) :
    qualifyFrom (typeMayStart true before) s =
      (s.zipIdx before.length).flatMap (withInserted globalAlias.toList positions) := by
  generalize hstate : typeMayStart true before = atStart
  induction atStart, s using scan_induction generalizing before with
  | nil atStart => simp
  | name name after hname hends ih =>
    have hafter := ih (before ++ name)
      (fun position hle => by
        rw [List.append_assoc]
        exact h position (by simp at hle; omega))
      (by rw [typeMayStart_append, typeMayStart_name hname])
    have hmark : before.length ∈ positions ↔
        isAliasBefore after = false ∧ String.ofList name ∉ keywordTypeNames :=
      (h before.length (Nat.le_refl _)).trans (lacksAnchor_name_iff hstate hname hends)
    have hinside : ∀ position, before.length < position →
        position < before.length + name.length → position ∉ positions := fun position hlt hle =>
      (h position hlt.le).not.mpr (not_lacksAnchor_inside hname hlt hle after)
    rw [qualifyFrom_name hname hends, hafter, List.zipIdx_append, List.flatMap_append,
      List.length_append]
    apply congrArg (· ++ _)
    obtain ⟨c, rest, rfl, _⟩ := hname.exists_cons
    rw [List.zipIdx_cons, List.flatMap_cons, flatMap_withInserted_eq_self (by
      intro position hge hlt
      exact hinside position (by omega) (by simp; omega))]
    rw [qualifyName_eq_ite, withInserted, if_congr hmark rfl rfl]
    split <;> simp
  | char atStart c rest hnot ih =>
    have hrest := ih (before ++ [c])
      (fun position hle => by
        rw [List.append_assoc]
        exact h position (by simp at hle; omega))
      (by rw [typeMayStart_concat, hstate])
    have hmark : before.length ∉ positions := by
      rw [h before.length (Nat.le_refl _), lacksAnchor_append_iff]
      rintro ⟨hstart, name, after, heq, hname, _⟩
      obtain ⟨d, tail, rfl, hstarts⟩ := hname.exists_cons
      obtain rfl : c = d := (List.cons.inj heq).1
      simp [← hstate, hstart, hstarts] at hnot
    rw [qualifyFrom_cons hnot, hrest, List.zipIdx_cons, List.flatMap_cons, withInserted,
      if_neg hmark, List.length_append]
    rfl

end Insertion

theorem lt_length_of_lacksAnchor {position : Nat} (h : LacksAnchor s position) :
    position < s.length := by
  obtain ⟨before, name, after, rfl, rfl, _, hwhole, _⟩ := h
  obtain ⟨c, rest, rfl, _⟩ := hwhole.isName.exists_cons
  simp

/-- Every text is qualified by anchors inserted at some of its positions, and qualified once and for
all. The positions are those of the whole names that stand at the start of the text or after `<`,
`,` or `(`, white space apart, and are neither aliases nor keywords. -/
theorem globalName_inserts (s : String) :
    globalName (globalName s) = globalName s ∧
    ∃ positions : Finset Nat,
      (globalName s).toList = insertBefore globalAlias.toList positions s.toList ∧
      ∀ position, position ∈ positions ↔ ∃ before name after,
        s.toList = before ++ name ++ after ∧ before.length = position ∧
        AtTypeStart before ∧ WholeName before name after ∧
        isAliasBefore after = false ∧ String.ofList name ∉ keywordTypeNames := by
  classical
  have hpositions : ∀ position,
      position ∈ (Finset.range s.toList.length).filter (LacksAnchor s.toList) ↔
        LacksAnchor s.toList position := by
    intro position
    rw [Finset.mem_filter, Finset.mem_range, and_iff_right_iff_imp]
    exact lt_length_of_lacksAnchor
  refine ⟨?_, _, ?_, hpositions⟩
  · simp only [globalName, String.toList_ofList, qualifyFrom_qualifyFrom]
  · rw [globalName, String.toList_ofList]
    exact qualifyFrom_eq_flatMap [] s.toList fun position _ => hpositions position

end Wiring.Emission
