import Wiring.Config.Setting
import Wiring.Text.Blank
import Wiring.Text.Pieces
import Wiring.Toml.Quoted
/-! Settings in environment variables. The name after the start tells where a setting stands, two
underscores going one table deeper; the value is a truth value, a number, a list in brackets, a
table in braces, a quoted text, or else a text as it is. -/
namespace Wiring.Setting

/-- White space inside lists and tables. -/
def isGap (c : Char) : Bool := c == ' ' || c == '\t' || c == '\n' || c == '\r' || c == '\x0c'

def skipGap (cs : List Char) : List Char := cs.dropWhile isGap

/-- A character that ends a value without quotes. -/
def endsPlain (c : Char) : Bool := c == ',' || c == '{' || c == '}' || c == '[' || c == ']'

/-- Whether a word is a number with a point, with or without sign. -/
def isPointed (cs : List Char) : Bool :=
  let body := match cs with
    | '+' :: rest => rest
    | '-' :: rest => rest
    | _ => cs
  cs.contains '.' && (Text.Decimal.ofChars? body).isSome

/-- Whether a word is an integer of 64 bits, without sign or with it. -/
def isWhole (cs : List Char) : Bool :=
  let fits (digits : List Char) (bound : Nat) : Bool :=
    match Text.digits? 10 digits with
    | some n => n < bound
    | none => false
  match cs with
  | '+' :: rest => fits rest (Nat.pow 2 64)
  | '-' :: rest => fits rest (Nat.pow 2 63 + 1)
  | _ => fits cs (Nat.pow 2 64)

/-- The setting of a value without quotes. -/
def ofPlain (cs : List Char) : Setting :=
  let word := Text.trim (String.ofList cs)
  if isPointed word.toList || isWhole word.toList then .number else .text word

/-- What follows a word, when the text starts with it. -/
def afterWord? (word : String) (cs : List Char) : Option (List Char) :=
  if word.toList.isPrefixOf cs then some (cs.drop word.length) else none

/-- A character of a name without quotes. -/
def isNameChar (c : Char) : Bool := c.isAlphanum || c == '_' || c == '-'

/-- The name of an entry, and what follows the equals sign after it. -/
def entryName? (cs : List Char) : Option (String × List Char) :=
  let cs := skipGap cs
  let read := match cs with
    | '"' :: rest => Toml.basic? .outside rest
    | _ => if (cs.takeWhile isNameChar).isEmpty then none
      else some (cs.takeWhile isNameChar, cs.dropWhile isNameChar)
  match read with
  | some (name, rest) =>
    match skipGap rest with
    | '=' :: rest => some (String.ofList name, rest)
    | _ => none
  | none => none

mutual

/-- The setting at the start of a text, and what follows it and its white space. -/
def value? : Nat → List Char → Option (Setting × List Char)
  | 0, _ => none
  | fuel + 1, cs =>
    let cs := skipGap cs
    let read : Option (Setting × List Char) :=
      match afterWord? "true" cs, afterWord? "false" cs with
      | some rest, _ => some (.flag true, rest)
      | none, some rest => some (.flag false, rest)
      | none, none =>
        match cs with
        | '{' :: rest => (entries? fuel rest []).map fun (entries, rest) => (.table entries, rest)
        | '[' :: rest => (items? fuel rest).map fun (items, rest) => (.list items, rest)
        | '"' :: rest =>
          (Toml.basic? .outside rest).map fun (s, rest) => (.text (String.ofList s), rest)
        | '\'' :: c :: '\'' :: rest => some (.text (String.ofList [c]), rest)
        | '\'' :: _ => none
        | _ =>
          some (ofPlain (cs.takeWhile fun c => !endsPlain c), cs.dropWhile fun c => !endsPlain c)
    read.map fun (value, rest) => (value, skipGap rest)

/-- The items of a list up to its closing bracket; a comma may follow the last one. -/
def items? : Nat → List Char → Option (List Setting × List Char)
  | 0, _ => none
  | fuel + 1, cs =>
    match cs with
    | ']' :: rest => some ([], rest)
    | _ =>
      match value? fuel cs with
      | some (value, ',' :: rest) =>
        (items? fuel rest).map fun (items, rest) => (value :: items, rest)
      | some (value, ']' :: rest) => some ([value], rest)
      | _ => none

/-- The entries of a table after those already read, up to its closing brace. -/
def entries? : Nat → List Char → List (String × Setting) →
    Option (List (String × Setting) × List Char)
  | 0, _, _ => none
  | fuel + 1, cs, before =>
    match cs with
    | '}' :: rest => some (before, rest)
    | _ =>
      match entryName? cs with
      | none => none
      | some (name, rest) =>
        match value? fuel rest with
        | some (value, ',' :: rest) => entries? fuel rest (put name value before)
        | some (value, '}' :: rest) => some (put name value before, rest)
        | _ => none

end

/-- The setting of a whole text. One that is no value is a text. -/
def ofText (text : String) : Setting :=
  match value? (2 * text.length + 2) text.toList with
  | some (value, []) => value
  | _ => .text text

/-- A name with a point for every two underscores. -/
def pointed : List Char → List Char
  | '_' :: '_' :: rest => '.' :: pointed rest
  | c :: rest => c :: pointed rest
  | [] => []

/-- A value under a path of names, which ends in front of an empty name. -/
def nest (value : Setting) : List String → Setting
  | [] => value
  | name :: rest => if name.isEmpty then value else .table [(name, nest value rest)]

/-- What follows the start of a name, which is matched in any case of letters. -/
def nameAfter? (start name : String) : Option (List Char) :=
  let cs := name.toList.map Char.toLower
  let start := start.toList.map Char.toLower
  if start.isPrefixOf cs then some (cs.drop start.length) else none

/-- The settings of one variable, if its name has the start and is longer. -/
def ofVariable? (start : String) (variable_ : String × String) : Option Setting :=
  (nameAfter? start (Text.trim variable_.1)).bind fun cs =>
    let place := Text.splitString '.' (String.ofList (pointed cs))
    match nest (ofText (Text.trim variable_.2)) place with
    | .table entries => some (.table entries)
    | _ => none

/-- The settings of all variables; of two for one setting the later wins. -/
def ofVariables (start : String) (named : List (String × String)) : Setting :=
  (named.filterMap (ofVariable? start)).foldl (fun lower upper => overlay upper lower) (.table [])

end Wiring.Setting
