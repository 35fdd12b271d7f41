import Wiring.Yaml.Token
/-! Tags, anchors and directives. -/
namespace Wiring.Yaml

/-- Characters of a tag, the flow indicators among them only in a verbatim tag. -/
def isTagChar (verbatim : Bool) (c : Char) : Bool :=
  isWordChar c || ";/?:@&=+$.!~*'()%".toList.contains c || (verbatim && ",[]".toList.contains c)

/-- The octet of an escape such as `%C3`, with the text after it. -/
def escapedOctet? : List Char → Option (Nat × List Char)
  | '%' :: a :: b :: rest => (Text.digits? 16 [a, b]).map fun n => (n, rest)
  | _ => none

/-- How many octets follow the first octet of a character, and the bits it carries. -/
def leadingOctet? (n : Nat) : Option (Nat × Nat) :=
  if n < 0x80 then some (0, n)
  else if n / 0x20 == 6 then some (1, n % 0x20)
  else if n / 0x10 == 14 then some (2, n % 0x10)
  else if n / 8 == 30 then some (3, n % 8)
  else none

/-- The escaped octets that follow a first one, and the code they complete. -/
def followingOctets? : Nat → Nat → List Char → Option (Nat × List Char)
  | 0, code, cs => some (code, cs)
  | more + 1, code, cs => do
    let (n, rest) ← escapedOctet? cs
    if n / 0x40 != 2 then none
    followingOctets? more (code * 0x40 + n % 0x40) rest

/-- A character written as escaped octets, and how long its escapes are. -/
def escapedChar? (cs : List Char) : Option (Char × Nat) := do
  let (first, rest) ← escapedOctet? cs
  let (more, bits) ← leadingOctet? first
  let (code, _) ← followingOctets? more bits rest
  return (Char.ofNat code, 3 * (more + 1))

/-- The characters of a tag, in reverse before `text`. -/
def scanTagText? (verbatim : Bool) : Nat → Cursor → List Char → Option (List Char × Cursor)
  | 0, _, _ => none
  | fuel + 1, c, text =>
    match c.rest with
    | [] => some (text, c)
    | ch :: _ =>
      if ch == '%' then
        match escapedChar? c.rest with
        | some (escaped, length) => scanTagText? verbatim fuel (c.skipBy length) (escaped :: text)
        | none => none
      else if isTagChar verbatim ch then scanTagText? verbatim fuel c.skip (ch :: text)
      else some (text, c)

/-- `!`, `!!`, `!word!` or `!word`, the last being no handle. -/
def scanHandle? (c : Cursor) : Option (List Char × Cursor) :=
  match c.rest with
  | '!' :: _ =>
    let (word, c) := c.skip.takeWhile isWordChar
    match c.rest with
    | '!' :: _ => some ('!' :: word ++ ['!'], c.skip)
    | _ => some ('!' :: word, c)
  | _ => none

/-- A tag in angle brackets, after `!<`. -/
def scanVerbatimTag? (fuel : Nat) (c : Cursor) : Option (Token × Cursor) := do
  let (text, c) ← scanTagText? true fuel c []
  if text.isEmpty || !startsWith (· == '>') c.rest then none
  return (.tag "" (String.ofList text.reverse), c.skip)

/-- A tag with a handle, or without one, in which case `!` is its handle. A lone `!` is a tag. -/
def scanShortTag? (fuel : Nat) (c : Cursor) : Option (Token × Cursor) := do
  let (handle, c) ← scanHandle? c
  if handle.length > 1 && handle.getLast? == some '!' then
    let (text, c) ← scanTagText? false fuel c []
    if text.isEmpty then none
    return (.tag (String.ofList handle) (String.ofList text.reverse), c)
  else
    let (text, c) ← scanTagText? false fuel c (handle.drop 1).reverse
    if text.isEmpty then return (.tag "" "!", c)
    return (.tag "!" (String.ofList text.reverse), c)

/-- A tag. White space must come after it, or a comma inside brackets. -/
def scanTag? (inFlow : Bool) (fuel : Nat) (c : Cursor) : Option (Token × Cursor) := do
  let (token, c) ←
    if startsWith (· == '<') (c.rest.drop 1) then scanVerbatimTag? fuel (c.skipBy 2)
    else scanShortTag? fuel c
  if (inFlow && startsWith (· == ',') c.rest) || atBlankOrEnd c.rest then return (token, c)
  none

/-- The name of an anchor or alias. Only white space or certain indicators may follow it. -/
def scanName? (c : Cursor) : Option (String × Cursor) :=
  let (name, c) := c.takeWhile isWordChar
  let ends :=
    atEndOr (fun ch => isBlank ch || isBreak ch || "?:,]\x7d%@\x60".toList.contains ch) c.rest
  if name.isEmpty || !ends then none else some (String.ofList name, c)

/-- A number of a version, of nine digits at most. -/
def versionNumber? (c : Cursor) : Option (Nat × Cursor) :=
  let (digits, c) := c.takeWhile Char.isDigit
  if digits.length > 9 then none else (Text.digits? 10 digits).map fun n => (n, c)

/-- The version of a version directive. -/
def scanVersion? (c : Cursor) : Option (Token × Cursor) := do
  let (major, c) ← versionNumber? c.skipBlanks
  if !startsWith (· == '.') c.rest then none
  let (minor, c) ← versionNumber? c.skip
  return (.versionDirective major minor, c)

/-- The handle and the start of a tag directive. -/
def scanTagDirective? (fuel : Nat) (c : Cursor) : Option (Token × Cursor) := do
  let (handle, c) ← scanHandle? c.skipBlanks
  if handle != ['!'] && handle.getLast? != some '!' then none
  if !startsWith isBlank c.rest then none
  let (text, c) ← scanTagText? true fuel c.skipBlanks []
  if text.isEmpty || !atBlankOrEnd c.rest then none
  return (.tagDirective (String.ofList handle) (String.ofList text.reverse), c)

/-- A directive after its `%`, to the end of its line. Only `YAML` and `TAG` are known. -/
def scanDirective? (fuel : Nat) (c : Cursor) : Option (Token × Cursor) := do
  let (name, c) := c.takeWhile isWordChar
  if name.isEmpty || !atBlankOrEnd c.rest then none
  let (token, c) ←
    if name == "YAML".toList then scanVersion? c
    else if name == "TAG".toList then scanTagDirective? fuel c
    else none
  return (token, ← c.finishLine?)

end Wiring.Yaml
