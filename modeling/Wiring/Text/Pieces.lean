/-! Texts cut at a separator. -/
namespace Wiring.Text

/-- The pieces between occurrences of a separator, one more than there are occurrences. -/
def pieces (separator : Char) : List Char → List (List Char)
  | [] => [[]]
  | c :: rest =>
    if c = separator then [] :: pieces separator rest
    else
      match pieces separator rest with
      | first :: others => (c :: first) :: others
      | [] => [[c]]

theorem pieces_ne_nil (separator : Char) (cs : List Char) : pieces separator cs ≠ [] := by
  cases cs with
  | nil => simp [pieces]
  | cons c rest =>
    by_cases h : c = separator
    · simp [pieces, h]
    · simp only [pieces, h, if_false]
      split <;> simp

/-- The pieces of a string. -/
def splitString (separator : Char) (s : String) : List String :=
  (pieces separator s.toList).map String.ofList

end Wiring.Text
