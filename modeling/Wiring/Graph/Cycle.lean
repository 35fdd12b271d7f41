/-! Cycles of names, written `[a, b, …, a]` with the first name again at the end, and a form of
them that does not depend on where they start. -/
namespace Wiring.Graph

/-- `names` with the part before the first occurrence of `start` moved to the end. -/
def rotateTo (start : String) (names : List String) : List String :=
  names.dropWhile (· != start) ++ names.takeWhile (· != start)

/-- The least of two names, by code points. -/
def lesser (a b : String) : String := if b < a then b else a

/-- The least name of a list. -/
def leastName? : List String → Option String
  | [] => none
  | name :: rest => some (rest.foldl lesser name)

/-- The nodes of a cycle, from the least name on. Two cycles have one identity exactly when they
are rotations of each other. -/
def cycleIdentity (cycle : List String) : List String :=
  match leastName? cycle.dropLast with
  | some least => rotateTo least cycle.dropLast
  | none => []

end Wiring.Graph
