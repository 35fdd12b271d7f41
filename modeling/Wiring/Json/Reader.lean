import Wiring.Json.Basic
/-! Reads JSON text strictly. A value and the items after it take a character between
them, so twice the number of characters bounds the recursion. -/
namespace Wiring.Json

def isSpace (c : Char) : Bool := c == ' ' || c == '\n' || c == '\t' || c == '\r'

def skipSpace (cs : List Char) : List Char := cs.dropWhile isSpace

/-- The number of four hexadecimal digits. -/
def hex4? : List Char → Option (Nat × List Char)
  | a :: b :: c :: d :: rest => (Text.digits? 16 [a, b, c, d]).map fun n => (n, rest)
  | _ => none

def isHighSurrogate (n : Nat) : Bool := 0xD800 ≤ n && n < 0xDC00

def isLowSurrogate (n : Nat) : Bool := 0xDC00 ≤ n && n < 0xE000

/-- A character that a backslash and a letter stand for. -/
def shortEscape? (c : Char) : Option Char :=
  [('"', '"'), ('\\', '\\'), ('/', '/'), ('b', '\x08'), ('f', '\x0c'), ('n', '\n'), ('r', '\r'),
   ('t', '\t')].lookup c

/-- The character of an escape by number, after `\u`; nothing for half of a surrogate pair. -/
def unicodeEscape? (cs : List Char) : Option (Option Char × List Char) :=
  match hex4? cs with
  | none => none
  | some (n, rest) =>
    if isHighSurrogate n then
      match rest with
      | '\\' :: 'u' :: more =>
        match hex4? more with
        | some (low, rest') =>
          if isLowSurrogate low then
            some (some (Char.ofNat (0x10000 + (n - 0xD800) * 0x400 + (low - 0xDC00))), rest')
          else some (none, rest)
        | none => none
      | _ => some (none, rest)
    else if isLowSurrogate n then some (none, rest)
    else some (some (Char.ofNat n), rest)

/-- The rest of a string literal after its opening quote: its characters, or nothing when an escape
stands for none, and what follows. -/
def stringBody? : Nat → List Char → List Char → Bool → Option (Option String × List Char)
  | 0, _, _, _ => none
  | fuel + 1, cs, before, sound =>
    match cs with
    | '"' :: rest => some (if sound then some (String.ofList before.reverse) else none, rest)
    | '\\' :: 'u' :: rest =>
      match unicodeEscape? rest with
      | some (some c, rest) => stringBody? fuel rest (c :: before) sound
      | some (none, rest) => stringBody? fuel rest before false
      | none => none
    | '\\' :: c :: rest =>
      match shortEscape? c with
      | some c => stringBody? fuel rest (c :: before) sound
      | none => none
    | c :: rest => if c.toNat < 0x20 then none else stringBody? fuel rest (c :: before) sound
    | [] => none

/-- A run of digits, which must not be empty. -/
def digitRun? (cs : List Char) : Option (List Char × List Char) :=
  match cs.takeWhile Char.isDigit with
  | [] => none
  | run => some (run, cs.dropWhile Char.isDigit)

/-- A numeral: no leading zeros, a digit on both sides of the point and in the exponent. -/
def number? (cs : List Char) : Option (Json × List Char) := do
  let (negative, cs) := match cs with
    | '-' :: rest => (true, rest)
    | _ => (false, cs)
  let (whole, rest) ← digitRun? cs
  if whole.length > 1 && whole.head? == some '0' then none
  let (fraction, rest) ← match rest with
    | '.' :: more => (digitRun? more).map fun (run, rest) => ('.' :: run, rest)
    | _ => some ([], rest)
  let (exponent, rest) ← match rest with
    | 'e' :: '+' :: more | 'e' :: '-' :: more | 'E' :: '+' :: more | 'E' :: '-' :: more =>
      (digitRun? more).map fun (run, after) => (rest.take 2 ++ run, after)
    | 'e' :: more | 'E' :: more =>
      (digitRun? more).map fun (run, after) => (rest.take 1 ++ run, after)
    | _ => some ([], rest)
  let value ← Text.digits? 10 whole
  if fraction.isEmpty && exponent.isEmpty && !(negative && value == 0) then
    some (.int (if negative then -(value : Int) else value), rest)
  else
    let sign := if negative then ['-'] else []
    some (.real (String.ofList (sign ++ whole ++ fraction ++ exponent)), rest)

/-- The rest after a literal word. -/
def word? (word : String) (cs : List Char) : Option (List Char) :=
  if word.toList.isPrefixOf cs then some (cs.drop word.length) else none

mutual

/-- One value and what follows it. -/
def value? : Nat → List Char → Option (Json × List Char)
  | 0, _ => none
  | fuel + 1, cs =>
    match skipSpace cs with
    | '"' :: rest =>
      (stringBody? fuel rest [] true).map fun (s, rest) =>
        (match s with | some s => .str s | none => .garbled, rest)
    | '[' :: rest =>
      match skipSpace rest with
      | ']' :: rest => some (.arr [], rest)
      | rest => itemsAfter? fuel rest []
    | '{' :: rest =>
      match skipSpace rest with
      | '}' :: rest => some (.obj [], rest)
      | rest => membersAfter? fuel rest [] true
    | 't' :: rest => (word? "rue" rest).map fun rest => (.bool true, rest)
    | 'f' :: rest => (word? "alse" rest).map fun rest => (.bool false, rest)
    | 'n' :: rest => (word? "ull" rest).map fun rest => (.null, rest)
    | cs => number? cs

/-- The items from the next one to the closing bracket, after those already read. -/
def itemsAfter? : Nat → List Char → List Json → Option (Json × List Char)
  | 0, _, _ => none
  | fuel + 1, cs, before =>
    match value? fuel cs with
    | none => none
    | some (v, rest) =>
      match skipSpace rest with
      | ',' :: rest => itemsAfter? fuel rest (v :: before)
      | ']' :: rest => some (.arr (v :: before).reverse, rest)
      | _ => none

/-- The members from the next one to the closing brace, after those already read. An object is
sound as long as all its names are text. -/
def membersAfter? : Nat → List Char → List (String × Json) → Bool → Option (Json × List Char)
  | 0, _, _, _ => none
  | fuel + 1, cs, before, sound =>
    match skipSpace cs with
    | '"' :: rest =>
      match stringBody? fuel rest [] true with
      | none => none
      | some (name, rest) =>
        match skipSpace rest with
        | ':' :: rest =>
          match value? fuel rest with
          | none => none
          | some (v, rest) =>
            let sound := sound && name.isSome
            let before := (name.getD "", v) :: before
            match skipSpace rest with
            | ',' :: rest => membersAfter? fuel rest before sound
            | '}' :: rest => some (if sound then .obj before.reverse else .garbled, rest)
            | _ => none
        | _ => none
    | _ => none

end

/-- Reads a text that holds one value and white space. -/
def parse? (text : String) : Option Json :=
  match value? (2 * text.length + 1) text.toList with
  | some (v, rest) => if (skipSpace rest).isEmpty then some v else none
  | none => none

end Wiring.Json
