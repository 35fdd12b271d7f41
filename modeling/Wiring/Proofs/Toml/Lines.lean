import Wiring.Proofs.Toml.Quoted
import Wiring.Toml.Reader

/-! What single lines of a document say: the assignment of a value under a bare name, and the header
of a table. -/
namespace Wiring.Toml

/-- A name that stands without quotes. -/
def IsBare (name : String) : Prop :=
  name.toList.isEmpty = false ∧ name.toList.all isKeyChar = true

instance (name : String) : Decidable (IsBare name) :=
  inferInstanceAs (Decidable (_ ∧ _))

/-- A text that is read as a value in front of the end of a line. -/
structure Spells (text : String) (value : Toml) : Prop where
  skipWhite_eq (rest : List Char) : skipWhite (text.toList ++ rest) = text.toList ++ rest
  value?_eq (fuel : Nat) (rest : List Char) :
    value? maxDepth (fuel + 1) (text.toList ++ '\n' :: rest) = some (value, '\n' :: rest)

theorem skipWhite_cons_of_not {c : Char} (h : isWhite c = false) (rest : List Char) :
    skipWhite (c :: rest) = c :: rest := by
  rw [skipWhite, List.dropWhile_cons, h]
  rfl

theorem exists_quote_eq_cons (s : String) :
    ∃ mark others, (quote s).toList = mark :: others ∧ (mark = '"' ∨ mark = '\'') := by
  rw [quote, String.toList_ofList]
  cases (traits s.toList).style with
  | basic => exact ⟨_, _, rfl, .inl rfl⟩
  | literal => exact ⟨_, _, rfl, .inr rfl⟩
  | multiBasic => exact ⟨_, _, rfl, .inl rfl⟩
  | multiLiteral => exact ⟨_, _, rfl, .inr rfl⟩

theorem spells_quote (s : String) : Spells (quote s) (.text s) := by
  obtain ⟨mark, others, hquote, hmark⟩ := exists_quote_eq_cons s
  constructor
  · intro rest
    rw [hquote]
    refine skipWhite_cons_of_not ?_ _
    rcases hmark with rfl | rfl <;> rfl
  · intro fuel rest
    have hread : quoted? ((quote s).toList ++ '\n' :: rest) = some (s, '\n' :: rest) :=
      quoted?_quote s (by simp) (by simp)
    rw [hquote] at hread ⊢
    rcases hmark with rfl | rfl <;>
    · rw [List.cons_append] at hread ⊢
      simp only [value?, hread, Option.map_some]

theorem spells_true : Spells "true" (.flag true) where
  skipWhite_eq _ := rfl
  value?_eq fuel rest := by rfl

theorem spells_false : Spells "false" (.flag false) where
  skipWhite_eq _ := rfl
  value?_eq fuel rest := by rfl

/-- A text that starts like a bare name, as nothing else on a line does. -/
def StartsBare (cs : List Char) : Prop :=
  ∃ first others, cs = first :: others ∧ isKeyChar first = true

namespace StartsBare

variable {cs : List Char}

theorem append (h : StartsBare cs) (more : List Char) : StartsBare (cs ++ more) := by
  obtain ⟨first, others, rfl, hfirst⟩ := h
  exact ⟨first, others ++ more, rfl, hfirst⟩

theorem ne_nil (h : StartsBare cs) : cs ≠ [] := by
  obtain ⟨first, others, rfl, _⟩ := h
  exact List.cons_ne_nil first others

theorem ne_cons (h : StartsBare cs) {c : Char} (hc : isKeyChar c = false) (rest : List Char) :
    cs ≠ c :: rest := by
  obtain ⟨first, others, rfl, hfirst⟩ := h
  intro heq
  rw [(List.cons.inj heq).1, hc] at hfirst
  contradiction

theorem skipWhite_eq (h : StartsBare cs) : skipWhite cs = cs := by
  obtain ⟨first, others, rfl, hfirst⟩ := h
  refine skipWhite_cons_of_not ?_ others
  have hwhite (c : Char) (hc : isWhite c = true) : isKeyChar c = false := by
    simp only [isWhite, Bool.or_eq_true, beq_iff_eq] at hc
    rcases hc with rfl | rfl <;> rfl
  cases hfirstWhite : isWhite first with
  | false => rfl
  | true =>
    rw [hwhite first hfirstWhite] at hfirst
    contradiction

end StartsBare

section Key

variable {name : String} {c : Char}

theorem IsBare.chars (h : IsBare name) : ∀ c ∈ name.toList, isKeyChar c = true :=
  List.all_eq_true.mp h.2

theorem IsBare.starts (h : IsBare name) : StartsBare name.toList := by
  obtain ⟨first, others, hname⟩ :=
    List.exists_cons_of_ne_nil (List.isEmpty_eq_false_iff.mp h.1)
  exact ⟨first, others, hname, h.chars first (by rw [hname]; exact List.mem_cons_self)⟩

theorem keyPart?_bare (h : IsBare name) (hc : isKeyChar c = false) (rest : List Char) :
    keyPart? (name.toList ++ c :: rest) = some (name, c :: rest) := by
  have htake : (name.toList ++ c :: rest).takeWhile isKeyChar = name.toList := by
    rw [List.takeWhile_append_of_pos h.chars, List.takeWhile_cons, hc]
    simp
  have hdrop : (name.toList ++ c :: rest).dropWhile isKeyChar = c :: rest := by
    rw [List.dropWhile_append_of_pos h.chars, List.dropWhile_cons, hc]
    simp
  have hstarts := h.starts.append (c :: rest)
  unfold keyPart?
  split
  · rename_i heq
    exact absurd heq (hstarts.ne_cons (by decide) _)
  · rename_i heq
    exact absurd heq (hstarts.ne_cons (by decide) _)
  · simp only [htake, hdrop, h.1, Bool.false_eq_true, if_false, Option.map_some,
      String.ofList_toList]

/-- The last part of a key goes up to what ends the key. -/
theorem key?_last (h : IsBare name) (hc : isKeyChar c = false) {rest after : List Char}
    (hskip : skipWhite (c :: rest) = after) (hafter : after.head? ≠ some '.') (bound : Nat) :
    key? (bound + 1) (name.toList ++ c :: rest) = some ([name], after) := by
  rw [key?, (h.starts.append _).skipWhite_eq, keyPart?_bare h hc]
  simp only [hskip]
  split
  · exact absurd rfl hafter
  · rfl

theorem key?_dotted (h : IsBare name) (bound : Nat) (more : List Char) :
    key? (bound + 1) (name.toList ++ '.' :: more) =
      (key? bound more).map fun (parts, rest) => (name :: parts, rest) := by
  rw [key?, (h.starts.append _).skipWhite_eq, keyPart?_bare h (by decide)]
  rfl

theorem line?_assignment (h : IsBare name) {text : String} {value : Toml}
    (hspells : Spells text value) (rest : List Char) :
    line? ((name ++ " = " ++ text ++ "\n").toList ++ rest) =
      some (.assignment [] name value, rest) := by
  let after := text.toList ++ '\n' :: rest
  have hshape : (name ++ " = " ++ text ++ "\n").toList ++ rest =
      name.toList ++ ' ' :: '=' :: ' ' :: after := by
    simp [after]
  have hkey : assigned? (name.toList ++ ' ' :: '=' :: ' ' :: after) =
      some (([], name), ' ' :: after) := by
    unfold assigned?
    rw [maxDepth, key?_last h (by decide) rfl (by simp [skipWhite, isWhite])]
    rfl
  have hvalue : value? maxDepth (2 * (' ' :: after).length + 1) (skipWhite (' ' :: after)) =
      some (value, '\n' :: rest) := by
    have hskip : skipWhite (' ' :: after) = after := hspells.skipWhite_eq ('\n' :: rest)
    rw [hskip]
    exact hspells.value?_eq _ rest
  have hstarts := h.starts.append (' ' :: '=' :: ' ' :: after)
  rw [hshape]
  unfold line?
  rw [hstarts.skipWhite_eq]
  -- only an assignment starts like a bare name
  split
  · rename_i heq
    exact absurd heq hstarts.ne_nil
  · rename_i heq
    exact absurd heq (hstarts.ne_cons (by decide) _)
  · rename_i heq
    exact absurd heq (hstarts.ne_cons (by decide) _)
  · rename_i heq
    exact absurd heq (hstarts.ne_cons (by decide) _)
  · rename_i heq
    exact absurd heq (hstarts.ne_cons (by decide) _)
  · rename_i heq
    exact absurd heq (hstarts.ne_cons (by decide) _)
  · rw [hkey]
    dsimp only [Option.bind_eq_bind, Option.bind_some]
    rw [hvalue]
    rfl

/-- The parts of the key in the header of a table. -/
structure Heads (header : String) (path : List String) (name : String) : Prop where
  starts : StartsBare header.toList
  key?_eq (rest : List Char) :
    key? maxDepth (header.toList ++ ']' :: rest) = some (path ++ [name], ']' :: rest)

theorem heads_bare (name : String) (h : IsBare name) : Heads name [] name where
  starts := h.starts
  key?_eq rest := key?_last h (by decide) rfl (by simp [skipWhite, isWhite]) _

theorem heads_dotted (outer name : String) (houter : IsBare outer) (h : IsBare name) :
    Heads (outer ++ "." ++ name) [outer] name where
  starts := by
    rw [String.toList_append, String.toList_append]
    exact (houter.starts.append _).append _
  key?_eq rest := by
    have hshape : (outer ++ "." ++ name).toList ++ ']' :: rest =
        outer.toList ++ '.' :: (name.toList ++ ']' :: rest) := by
      simp
    rw [hshape, maxDepth, key?_dotted houter,
      key?_last h (by decide) rfl (by simp [skipWhite, isWhite])]
    rfl

theorem line?_header {header : String} {path : List String} (h : Heads header path name)
    (rest : List Char) :
    line? (("[" ++ header ++ "]\n").toList ++ rest) = some (.table path name, rest) := by
  have hshape : ("[" ++ header ++ "]\n").toList ++ rest =
      '[' :: (header.toList ++ ']' :: '\n' :: rest) := by
    simp
  have hparts : splitKey? (path ++ [name]) = some (path, name) := by
    simp [splitKey?]
  rw [hshape]
  unfold line?
  rw [skipWhite_cons_of_not (by decide)]
  split
  · rename_i heq
    exact nomatch heq
  · rename_i heq
    exact absurd (List.cons.inj heq).1 (by decide)
  · rename_i heq
    exact absurd (List.cons.inj heq).1 (by decide)
  · rename_i heq
    exact absurd (List.cons.inj heq).1 (by decide)
  · rename_i heq
    exact absurd (List.cons.inj heq).2 ((h.starts.append _).ne_cons (by decide) _)
  · rename_i heq
    obtain rfl := (List.cons.inj heq).2
    rw [h.key?_eq]
    dsimp only [Option.bind_eq_bind, Option.bind_some]
    simp only [hparts]
    rfl
  · rename_i hother
    exact absurd rfl (hother _)

end Key

end Wiring.Toml
