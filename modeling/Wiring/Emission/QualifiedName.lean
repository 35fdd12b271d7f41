import Wiring.Text.Letter
import Wiring.Text.Blank
/-! Display strings of types with every qualified name anchored at the global namespace:
`Ns.Map<Ns.Key, int>` becomes `global::Ns.Map<global::Ns.Key, int>`. A name can start at the start
of the text and after `<`, `,` and `(`; keyword types and names behind an alias stay as they are. -/
namespace Wiring.Emission

/-- Anchors lookup of a name at the global namespace. -/
def globalAlias : String := "global::"

/-- Type keywords, which are never qualified. -/
def keywordTypeNames : List String :=
  ["bool", "byte", "sbyte", "char", "decimal", "double", "float", "int", "uint", "nint", "nuint",
   "long", "ulong", "short", "ushort", "object", "string", "dynamic"]

/-- A character a dotted name may start with. -/
def startsName (c : Char) : Bool := Text.isAlphabetic c || c == '_'

/-- A character a dotted name may go on with. -/
def continuesName (c : Char) : Bool := Text.isAlphanumeric c || c == '_' || c == '.'

/-- A character after which a type may start. -/
def opensType (c : Char) : Bool := c == '<' || c == ',' || c == '('

/-- Whether a name is an alias, which the rest of the text shows. -/
def isAliasBefore (rest : List Char) : Bool := [':', ':'].isPrefixOf rest

/-- A name as it stands in generated code, before `rest`. -/
def qualifyName (name rest : List Char) : List Char :=
  if isAliasBefore rest || keywordTypeNames.contains (String.ofList name) then name
  else globalAlias.toList ++ name

/-- Whether a type may start after `c`, if it could (`atStart`) before `c`. White space keeps the
answer when it is yes. -/
def typeMayStartAfter (atStart : Bool) (c : Char) : Bool :=
  (atStart && Text.isBlank c) || opensType c

/-- Qualifies the names of a text that continues where a type may start, or may not. -/
def qualifyFrom (atStart : Bool) : List Char → List Char
  | [] => []
  | c :: rest =>
    if atStart && startsName c then
      qualifyName (c :: rest.takeWhile continuesName) (rest.dropWhile continuesName)
        ++ qualifyFrom false (rest.dropWhile continuesName)
    else c :: qualifyFrom (typeMayStartAfter atStart c) rest
  termination_by s => s.length
  decreasing_by
    · have := (List.dropWhile_suffix (l := rest) continuesName).length_le
      simp only [List.length_cons]; omega
    · simp

/-- Qualifies every name of a type display string. -/
def globalName (display : String) : String := String.ofList (qualifyFrom true display.toList)

end Wiring.Emission
