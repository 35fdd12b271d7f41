import Wiring.Text.Decimal
/-! What the text of a scalar stands for when its type is not settled by quotes: the core schema of
YAML, in which a number with leading zeros is a text. -/
namespace Wiring.Yaml

/-- How a scalar was written. -/
inductive ScalarStyle where
  | plain | singleQuoted | doubleQuoted | literal | folded
  deriving DecidableEq, Repr, Inhabited

namespace CoreTag

def bool : String := "tag:yaml.org,2002:bool"
def int : String := "tag:yaml.org,2002:int"
def float : String := "tag:yaml.org,2002:float"
def null : String := "tag:yaml.org,2002:null"

end CoreTag

def isNullWord (s : String) : Bool := ["null", "Null", "NULL", "~"].contains s

def boolWord? (s : String) : Option Bool :=
  if ["true", "True", "TRUE"].contains s then some true
  else if ["false", "False", "FALSE"].contains s then some false
  else none

/-- The rest after a start, when the text has it. -/
def after? (start : String) (cs : List Char) : Option (List Char) :=
  if start.toList.isPrefixOf cs then some (cs.drop start.length) else none

/-- Without its sign. -/
def unsigned : List Char → List Char
  | '+' :: cs => cs
  | '-' :: cs => cs
  | cs => cs

def startsWithSign : List Char → Bool
  | '+' :: _ => true
  | '-' :: _ => true
  | _ => false

/-- Digits that are no number, for they start with a zero. -/
def isPaddedDigits (cs : List Char) : Bool :=
  match unsigned cs with
  | '0' :: d :: rest => (d :: rest).all Char.isDigit
  | _ => false

/-- Digits in the base that a start announces. -/
def basedDigits? (cs : List Char) : Option Nat :=
  [("0x", 16), ("0o", 8), ("0b", 2)].findSome? fun (start, base) =>
    (after? start cs).bind (Text.digits? base)

/-- A number without sign, or with a plus sign, below `bound`. -/
def natural? (bound : Nat) (cs : List Char) : Option Nat :=
  let body := match cs with
    | '+' :: rest => rest
    | _ => cs
  let decimal := if startsWithSign body || isPaddedDigits cs then none else Text.digits? 10 body
  let based := (basedDigits? body).filter fun n => n < bound
  (based.orElse fun _ => decimal).filter fun n => n < bound

/-- The size of a number with a minus sign, at most `bound`. A plain decimal needs no minus sign
here, but one that has it must not be padded. -/
def negative? (bound : Nat) (cs : List Char) : Option Nat :=
  let body? := match cs with
    | '-' :: rest => some rest
    | _ => none
  body?.bind fun body =>
    let decimal := if isPaddedDigits cs then none else Text.digits? 10 body
    (((basedDigits? body).filter fun n => n ≤ bound).orElse fun _ => decimal).filter
      fun n => n ≤ bound

/-- A finite number in decimal notation, or one of the words for infinity and for no number. -/
def isFloat (cs : List Char) : Bool :=
  let body := match cs with
    | '+' :: rest => rest
    | _ => cs
  let word := String.ofList cs
  if cs.head? == some '+' && startsWithSign body then false
  else if [".inf", ".Inf", ".INF"].contains (String.ofList body) then true
  else if ["-.inf", "-.Inf", "-.INF", ".nan", ".NaN", ".NAN"].contains word then true
  else match Text.Decimal.ofChars? (unsigned body) with
    | some d => d.isFiniteDouble
    | none => false

/-- The type of a plain scalar. -/
inductive Resolved where
  | null
  | bool (b : Bool)
  | natural (n : Nat)
  /-- A number of another kind. -/
  | number
  /-- A number of more than 64 bits, which cannot be kept. -/
  | tooLarge
  | text
  deriving DecidableEq, Repr, Inhabited

/-- The number a text stands for, if any. -/
def resolveInteger? (cs : List Char) : Option Resolved :=
  match natural? (Nat.pow 2 64) cs with
  | some n => some (.natural n)
  | none =>
    if (negative? (Nat.pow 2 63) cs).isSome then some .number
    else if (natural? (Nat.pow 2 128) cs).isSome || (negative? (Nat.pow 2 127) cs).isSome then
      some .tooLarge
    else none

def resolve (s : String) : Resolved :=
  let cs := s.toList
  if s.isEmpty || isNullWord s then .null
  else match boolWord? s with
    | some b => .bool b
    | none =>
      match resolveInteger? cs with
      | some resolved => resolved
      | none => if !isPaddedDigits cs && isFloat cs then .number else .text

end Wiring.Yaml
