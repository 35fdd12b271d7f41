/-! What data is decoded from. A format gives its values an instance of `ValueTree`; the decoders of
domain types are written once, over any tree. -/
namespace Wiring.Decode

/-- The fields of a record, by name. A record may also be written as a sequence of its fields, in
order; the last ones may then be missing if they have defaults. -/
structure Record (ν : Type) where
  fields : List (String × ν)
  positional : Bool
  deriving Inhabited

/-- Values of a data format. -/
class ValueTree (ν : Type) where
  /-- A text. -/
  text? : ν → Option String
  /-- A truth value. -/
  flag? : ν → Option Bool
  /-- Whether the value stands for an absent optional value; nothing when it can be neither. -/
  absent? : ν → Option Bool
  /-- A record with the given field names. Other fields are ignored, repeated ones refused. -/
  record? : List String → ν → Option (Record ν)
  /-- The name of an alternative that carries nothing. -/
  choice? : ν → Option String

export ValueTree (text? flag? absent? record? choice?)

/-- A name in front of a value that was read before its type was known. -/
inductive LooseKey where
  | name (text : String)
  /-- A number, which stands for the field at its position. -/
  | position (n : Nat)
  | other
  deriving DecidableEq, Repr, Inhabited

/-- A value that was read before its type was known, as far as later decoding can tell. -/
inductive Loose where
  | null
  | text (s : String)
  | other
  deriving DecidableEq, Repr, Inhabited

/-- What a tagged value holds beside its tag. -/
inductive TaggedBody where
  | fields (entries : List (LooseKey × Loose))
  | items (values : List Loose)
  deriving DecidableEq, Repr, Inhabited

/-- A value that names its alternative in a field of its own. -/
structure Tagged where
  tag : String
  body : TaggedBody
  deriving DecidableEq, Repr, Inhabited

/-- Values of a format in which whole documents are written. -/
class DocumentTree (ν : Type) extends ValueTree ν where
  /-- A number without sign. -/
  natural? : ν → Option Nat
  items? : ν → Option (List ν)
  /-- A value tagged under the given field name. -/
  tagged? : String → ν → Option Tagged

export DocumentTree (natural? items? tagged?)

/-- Whether a name occurs twice. -/
def hasRepetition : List String → Bool
  | [] => false
  | name :: rest => rest.contains name || hasRepetition rest

namespace Record

variable {ν α : Type}

/-- The record of named entries, those with a known name kept. -/
def ofEntries? (names : List String) (entries : List (String × ν)) : Option (Record ν) :=
  let known := entries.filter fun entry => names.contains entry.1
  if hasRepetition (known.map Prod.fst) then none else some ⟨known, false⟩

/-- The record of values in field order. -/
def ofItems? (names : List String) (values : List ν) : Option (Record ν) :=
  if values.length ≤ names.length then some ⟨names.zip values, true⟩ else none

def find? (r : Record ν) (name : String) : Option ν := r.fields.lookup name

/-- A field that must be present. -/
def required (r : Record ν) (name : String) (decode : ν → Option α) : Option α :=
  (r.find? name).bind decode

/-- A field with a value for its absence. -/
def withDefault (r : Record ν) (name : String) (absent : α) (decode : ν → Option α) : Option α :=
  match r.find? name with
  | some v => decode v
  | none => some absent

end Record

variable {ν α : Type}

/-- An optional value. -/
def nullable [ValueTree ν] (decode : ν → Option α) (v : ν) : Option (Option α) :=
  match absent? v with
  | some true => some none
  | some false => (decode v).map some
  | none => none

/-- An optional field. Only a record by names may leave it out. -/
def Record.optional [ValueTree ν] (r : Record ν) (name : String) (decode : ν → Option α) :
    Option (Option α) :=
  match r.find? name with
  | some v => nullable decode v
  | none => if r.positional then none else some none

/-- Every item of a sequence. -/
def list [DocumentTree ν] (decode : ν → Option α) (v : ν) : Option (List α) :=
  (items? v).bind fun values => values.mapM decode

/-- A number that fits a word of 32 bits. -/
def word32? [DocumentTree ν] (v : ν) : Option UInt32 :=
  (natural? v).bind fun n => if n < UInt32.size then some (UInt32.ofNat n) else none

/-- A number that fits a word of 64 bits. -/
def word64? [DocumentTree ν] (v : ν) : Option UInt64 :=
  (natural? v).bind fun n => if n < UInt64.size then some (UInt64.ofNat n) else none

/-- An alternative that carries nothing, by its name. -/
def oneOf [ValueTree ν] (alternatives : List (String × α)) (v : ν) : Option α :=
  (choice? v).bind fun name => alternatives.lookup name

namespace Loose

def text? : Loose → Option String
  | .text s => some s
  | _ => none

/-- An optional text. -/
def nullableText? : Loose → Option (Option String)
  | .null => some none
  | .text s => some (some s)
  | .other => none

end Loose

/-- The field a key names, nothing when the key cannot name one. A position past the last field
names a field that is ignored. -/
def LooseKey.field? (names : List String) : LooseKey → Option (Option String)
  | .name text => some (some text)
  | .position n => some names[n]?
  | .other => none

namespace TaggedBody

/-- Whether the body fits an alternative that carries nothing. Fields are ignored, items are not. -/
def isUnit : TaggedBody → Bool
  | .fields _ => true
  | .items values => values.isEmpty

/-- An entry under the name of its field, or nothing of it when the field is ignored. -/
def namedField? (names : List String) (entry : LooseKey × Loose) :
    Option (Option (String × Loose)) :=
  (entry.1.field? names).map fun name => name.map fun name => (name, entry.2)

/-- The fields that belong to a record with the given names. -/
def record? (names : List String) : TaggedBody → Option (Record Loose)
  | .fields entries =>
    (entries.mapM (namedField? names)).bind fun named =>
      Record.ofEntries? names (named.filterMap id)
  | .items values => Record.ofItems? names values

end TaggedBody
end Wiring.Decode
