import Wiring.Decode.Tree
import Wiring.Yaml.Node
import Wiring.Yaml.Token.Scanner
/-! YAML nodes as trees to decode. A scalar of any kind is a text, as written; a number or truth
value must be plain; and an empty plain scalar is an empty collection. -/
namespace Wiring.Yaml.Node
open Decode

/-- The name in a tag such as `!name`, which selects an alternative. -/
def localTag? (tag : Option String) : Option String :=
  match tag.map String.toList with
  | some ['!'] => some "!"
  | some ('!' :: name) => some (String.ofList name)
  | _ => none

/-- Whether a scalar is read by the core schema: when plain, or when literal under the tag. -/
def isUntyped (style : ScalarStyle) (tag : Option String) (expected : String) : Bool :=
  style == .plain || (style == .literal && tag == some expected)

def text? : Node → Option String
  | .scalar _ _ text => some text
  | _ => none

def flag? : Node → Option Bool
  | .scalar style tag text => if isUntyped style tag CoreTag.bool then boolWord? text else none
  | _ => none

def natural? : Node → Option Nat
  | .scalar style tag text =>
    if isUntyped style tag CoreTag.int then Yaml.natural? (Nat.pow 2 64) text.toList else none
  | _ => none

/-- Only a plain scalar is absent: an empty one, or a word for null. -/
def absent? : Node → Option Bool
  | .scalar .plain none text => some (text.isEmpty || isNullWord text)
  | .scalar .plain (some tag) text =>
    if tag == CoreTag.null then (if isNullWord text then some true else none) else some false
  | _ => some false

/-- An empty plain scalar, which stands for an empty collection. -/
def isEmptyPlain : Node → Bool
  | .scalar .plain _ text => text.isEmpty
  | _ => false

def items? : Node → Option (List Node)
  | .sequence _ items => some items
  | n => if n.isEmptyPlain then some [] else none

/-- The entries of a mapping under text keys. -/
def entries? : Node → Option (List (String × Node))
  | .mapping _ entries => entries.mapM fun (key, value) => key.text?.map fun name => (name, value)
  | n => if n.isEmptyPlain then some [] else none

def record? (names : List String) (n : Node) : Option (Record Node) :=
  n.entries?.bind (Record.ofEntries? names)

/-- An alternative as a text, or as a local tag on nothing. -/
def choice? : Node → Option String
  | .scalar style tag text =>
    match localTag? tag with
    | some name => if style == .plain && (text.isEmpty || isNullWord text) then some name else none
    | none => some text
  | _ => none

/-- A plain or tagged scalar read before its type is known, and the key it makes. A number beyond
64 bits cannot be kept. -/
def looseScalar? (style : ScalarStyle) (tag : Option String) (text : String) :
    Option (LooseKey × Loose) :=
  let cs := text.toList
  let other : Option (LooseKey × Loose) := some (.other, .other)
  let integer : Option (LooseKey × Loose) :=
    match resolveInteger? cs with
    | some (.natural n) => some (.position n, .other)
    | some .number => other
    | _ => none
  let untagged : Option (LooseKey × Loose) :=
    match resolve text with
    | .text => some (.name text, .text text)
    | .null => some (.other, .null)
    | .natural n => some (.position n, .other)
    | .tooLarge => none
    | _ => other
  match tag with
  | none => if style == .plain then untagged else some (.name text, .text text)
  | some name =>
    if (localTag? tag).isSome then none
    else if name == CoreTag.bool then (boolWord? text).bind fun _ => other
    else if name == CoreTag.int then integer
    else if name == CoreTag.float then (if isFloat cs then other else none)
    else if name == CoreTag.null then (if isNullWord text then some (.other, .null) else none)
    else some (.name text, .text text)

mutual

/-- A node read before its type is known, with at most `depth` levels of collections. -/
def loose? (depth : Nat) : Node → Option (LooseKey × Loose)
  | .scalar style tag text => looseScalar? style tag text
  | .sequence tag items =>
    match depth with
    | 0 => none
    | depth + 1 =>
      if (localTag? tag).isNone && areItemsLoose depth items then some (.other, .other) else none
  | .mapping tag entries =>
    match depth with
    | 0 => none
    | depth + 1 =>
      if (localTag? tag).isNone && areEntriesLoose depth entries then some (.other, .other)
      else none
  | .endless => none

def areItemsLoose (depth : Nat) : List Node → Bool
  | [] => true
  | n :: rest => (loose? depth n).isSome && areItemsLoose depth rest

def areEntriesLoose (depth : Nat) : List (Node × Node) → Bool
  | [] => true
  | (key, value) :: rest =>
    (loose? depth key).isSome && (loose? depth value).isSome && areEntriesLoose depth rest

end

/-- Levels of collections inside a value that is read before its type is known. -/
def maxLooseDepth : Nat := 122

/-- The entries beside the tag, and the tags. -/
def splitTag? (key : String) : List (Node × Node) →
    Option (List Node × List (LooseKey × Loose))
  | [] => some ([], [])
  | (k, v) :: rest => do
    let (looseKey, _) ← loose? maxLooseDepth k
    if looseKey == .name key then
      let (tags, others) ← splitTag? key rest
      return (v :: tags, others)
    else
      let (_, value) ← loose? maxLooseDepth v
      let (tags, others) ← splitTag? key rest
      return (tags, (looseKey, value) :: others)

/-- A mapping with the tag among its entries, or a sequence that starts with it. -/
def tagged? (key : String) : Node → Option Tagged
  | .mapping tag entries =>
    if (localTag? tag).isSome then none
    else
      match splitTag? key entries with
      | some ([v], others) => v.text?.map fun name => ⟨name, .fields others⟩
      | _ => none
  | .sequence tag (first :: rest) =>
    if (localTag? tag).isSome then none
    else do
      let name ← first.text?
      let values ← rest.mapM fun n => (loose? maxLooseDepth n).map Prod.snd
      return ⟨name, .items values⟩
  | _ => none

instance : DocumentTree Node where
  text? := text?
  flag? := flag?
  absent? := absent?
  record? := record?
  choice? := choice?
  natural? := natural?
  items? := items?
  tagged? := tagged?

/-- The document of a text that holds one document, or none. -/
def parse? (text : String) : Option (Option Node) :=
  (Token.scan? text).bind fun tokens => document? tokens.toList

end Wiring.Yaml.Node
