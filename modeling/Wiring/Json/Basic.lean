import Wiring.Decode.Writer
import Wiring.Text.Decimal
/-! JSON values. Objects keep their members in order, repeated ones included. -/
namespace Wiring

inductive Json where
  | null
  | bool (b : Bool)
  /-- A number written as an integer other than `-0`. -/
  | int (n : Int)
  /-- Any other number, as written. -/
  | real (text : String)
  | str (s : String)
  | arr (items : List Json)
  | obj (members : List (String × Json))
  /-- A text, or an object with such a text among its names, whose escapes do not stand for
  characters: half of a surrogate pair. It can only be passed over. -/
  | garbled
  deriving Repr, Inhabited, BEq

namespace Json

/-- A number of either word size. -/
def nat (n : Nat) : Json := .int n

/-- An optional value; nothing is written as null. -/
def opt {α : Type} (encode : α → Json) : Option α → Json
  | some a => encode a
  | none => .null

def list {α : Type} (encode : α → Json) (xs : List α) : Json := .arr (xs.map encode)

mutual

/-- Levels of arrays and objects. -/
def depth : Json → Nat
  | .arr items => depthOfItems items + 1
  | .obj members => depthOfMembers members + 1
  | _ => 0

def depthOfItems : List Json → Nat
  | [] => 0
  | v :: rest => max v.depth (depthOfItems rest)

def depthOfMembers : List (String × Json) → Nat
  | [] => 0
  | (_, v) :: rest => max v.depth (depthOfMembers rest)

end

/-- Whether a number as written is within double precision. -/
def isFiniteReal (text : String) : Bool :=
  let unsigned := text.toList.dropWhile (· == '-')
  match Text.Decimal.ofChars? unsigned with
  | some d => d.isFiniteDouble
  | none => false

mutual

/-- Whether all of a value stands for data, so that it can be read before its type is known. -/
def isReadable : Json → Bool
  | .garbled => false
  | .real text => isFiniteReal text
  | .arr items => areItemsReadable items
  | .obj members => areMembersReadable members
  | _ => true

def areItemsReadable : List Json → Bool
  | [] => true
  | v :: rest => v.isReadable && areItemsReadable rest

def areMembersReadable : List (String × Json) → Bool
  | [] => true
  | (_, v) :: rest => v.isReadable && areMembersReadable rest

end

/-- Levels that a value read before its type is known may have, within a document. -/
def maxLooseDepth : Nat := 122

def text? : Json → Option String
  | .str s => some s
  | _ => none

def flag? : Json → Option Bool
  | .bool b => some b
  | _ => none

def natural? : Json → Option Nat
  | .int (.ofNat n) => some n
  | _ => none

def absent? : Json → Option Bool
  | .null => some true
  | _ => some false

def items? : Json → Option (List Json)
  | .arr items => some items
  | _ => none

/-- A record by names, or as an array of its fields. -/
def record? (names : List String) : Json → Option (Decode.Record Json)
  | .obj members => Decode.Record.ofEntries? names members
  | .arr items => Decode.Record.ofItems? names items
  | _ => none

/-- An alternative as its name, or as an object from its name to null. -/
def choice? : Json → Option String
  | .str s => some s
  | .obj [(name, .null)] => some name
  | _ => none

/-- What later decoding can tell of a value. -/
def loose : Json → Decode.Loose
  | .null => .null
  | .str s => .text s
  | _ => .other

/-- A value tagged under `key`: an object with the tag among its members, or an array that starts
with the tag. -/
def tagged? (key : String) (v : Json) : Option Decode.Tagged :=
  if !v.isReadable || v.depth > maxLooseDepth then none
  else match v with
    | .obj members =>
      match members.filter fun m => m.1 == key with
      | [(_, .str tag)] =>
        some ⟨tag, .fields ((members.filter fun m => m.1 != key).map fun m =>
          (.name m.1, m.2.loose))⟩
      | _ => none
    | .arr (.str tag :: rest) => some ⟨tag, .items (rest.map loose)⟩
    | _ => none

instance : Decode.DocumentTree Json where
  text? := text?
  flag? := flag?
  absent? := absent?
  record? := record?
  choice? := choice?
  natural? := natural?
  items? := items?
  tagged? := tagged?

def writer : Decode.Writer Json where
  text := .str
  flag := .bool
  record := .obj
  text?_text _ := rfl
  absent?_text _ := rfl
  choice?_text _ := rfl
  flag?_flag _ := rfl
  record?_record _ _ := rfl

/-- An alternative with fields, as an object from its name to them. -/
def variant? : Json → Option (String × Json)
  | .obj [(name, payload)] => some (name, payload)
  | _ => none

end Json
end Wiring
