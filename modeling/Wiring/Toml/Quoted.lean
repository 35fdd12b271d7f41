import Wiring.Text.Decimal
/-! String literals of TOML, read and written: basic ones with escapes in double quotes, literal
ones in single quotes, and both over several lines in threefold quotes. -/
namespace Wiring.Toml

def isWhite (c : Char) : Bool := c == ' ' || c == '\t'

/-- A character other than a control character, or a tab. -/
def isPrintable (c : Char) : Bool := c == '\t' || (0x20 ≤ c.toNat && c.toNat != 0x7F)

/-- What a character after a backslash stands for. -/
def shortEscape? (c : Char) : Option Char :=
  [('b', '\x08'), ('t', '\t'), ('n', '\n'), ('f', '\x0c'), ('r', '\r'), ('"', '"'),
   ('\\', '\\')].lookup c

/-- The character with a number, unless the number belongs to half of a surrogate pair. -/
def scalar? (n : Nat) : Option Char := if n.isValidChar then some (Char.ofNat n) else none

/-- Where the reading of an escape stands. -/
inductive Escape where
  | outside
  /-- After the backslash. -/
  | opened
  /-- Inside a number: digits that are missing, and the value of those read. -/
  | digits (missing value : Nat)
  /-- Inside white space after a backslash; whether a line break was among it. -/
  | gap (broken : Bool)
  deriving DecidableEq, Repr, Inhabited

/-- The text read so far is followed by a character. -/
def followed (c : Char) (read : Option (List Char × List Char)) : Option (List Char × List Char) :=
  read.map fun (chars, rest) => (c :: chars, rest)

/-- The rest of a string in double quotes on one line. -/
def basic? : Escape → List Char → Option (List Char × List Char)
  | _, [] => none
  | .outside, c :: rest =>
    if c = '"' then some ([], rest)
    else if c = '\\' then basic? .opened rest
    else if isPrintable c then followed c (basic? .outside rest)
    else none
  | .opened, c :: rest =>
    if c = 'u' then basic? (.digits 4 0) rest
    else if c = 'U' then basic? (.digits 8 0) rest
    else match shortEscape? c with
      | some c => followed c (basic? .outside rest)
      | none => none
  | .digits missing value, c :: rest =>
    match Text.digitValue? 16 c with
    | none => none
    | some d =>
      if missing ≤ 1 then
        match scalar? (value * 16 + d) with
        | some c => followed c (basic? .outside rest)
        | none => none
      else basic? (.digits (missing - 1) (value * 16 + d)) rest
  | .gap _, _ :: _ => none

/-- The rest of a string in single quotes on one line. -/
def literal? : List Char → Option (List Char × List Char)
  | [] => none
  | c :: rest =>
    if c = '\'' then some ([], rest)
    else if isPrintable c then followed c (literal? rest)
    else none

/-- What follows a threefold quote: up to two more quotes still belong to the text. -/
def closing (quote : Char) : List Char → List Char × List Char
  | a :: b :: rest =>
    if a = quote then (if b = quote then ([a, b], rest) else ([a], b :: rest))
    else ([], a :: b :: rest)
  | [a] => if a = quote then ([a], []) else ([], [a])
  | [] => ([], [])

/-- Whether a text goes on with two quotes. -/
def startsWithTwo (quote : Char) (cs : List Char) : Bool := [quote, quote].isPrefixOf cs

/-- Whether a text goes on with a line break or white space. -/
def startsWithGap : List Char → Bool
  | c :: _ => isWhite c || c == '\n' || c == '\r'
  | [] => false

/-- The rest of a string in threefold double quotes. A backslash at the end of a line passes over
all white space that follows. -/
def multiBasic? : Escape → List Char → Option (List Char × List Char)
  | _, [] => none
  | .outside, c :: rest =>
    if c = '"' then
      if startsWithTwo '"' rest then some (closing '"' (rest.drop 2))
      else followed c (multiBasic? .outside rest)
    else if c = '\\' then multiBasic? (if startsWithGap rest then .gap false else .opened) rest
    else if c = '\r' then (if rest.head? = some '\n' then multiBasic? .outside rest else none)
    else if c = '\n' || isPrintable c then followed c (multiBasic? .outside rest)
    else none
  | .opened, c :: rest =>
    if c = 'u' then multiBasic? (.digits 4 0) rest
    else if c = 'U' then multiBasic? (.digits 8 0) rest
    else match shortEscape? c with
      | some c => followed c (multiBasic? .outside rest)
      | none => none
  | .digits missing value, c :: rest =>
    match Text.digitValue? 16 c with
    | none => none
    | some d =>
      if missing ≤ 1 then
        match scalar? (value * 16 + d) with
        | some c => followed c (multiBasic? .outside rest)
        | none => none
      else multiBasic? (.digits (missing - 1) (value * 16 + d)) rest
  | .gap broken, c :: rest =>
    let broken := broken || c == '\n'
    if c = '\r' && rest.head? != some '\n' then none
    else if startsWithGap rest then multiBasic? (.gap broken) rest
    else if broken then multiBasic? .outside rest
    else none

/-- The rest of a string in threefold single quotes. -/
def multiLiteral? : List Char → Option (List Char × List Char)
  | [] => none
  | c :: rest =>
    if c = '\'' then
      if startsWithTwo '\'' rest then some (closing '\'' (rest.drop 2))
      else followed c (multiLiteral? rest)
    else if c = '\r' then (if rest.head? = some '\n' then multiLiteral? rest else none)
    else if c = '\n' || isPrintable c then followed c (multiLiteral? rest)
    else none

/-- Without the line break that may follow a threefold opening quote. -/
def afterOpening : List Char → List Char
  | '\n' :: rest => rest
  | '\r' :: '\n' :: rest => rest
  | rest => rest

/-- A string literal of any style at the start of a text. -/
def quoted? (cs : List Char) : Option (String × List Char) :=
  let read := match cs with
    | '"' :: '"' :: '"' :: rest => multiBasic? .outside (afterOpening rest)
    | '"' :: rest => basic? .outside rest
    | '\'' :: '\'' :: '\'' :: rest => multiLiteral? (afterOpening rest)
    | '\'' :: rest => literal? rest
    | _ => none
  read.map fun (chars, rest) => (String.ofList chars, rest)

/-- What decides the style in which a text is written. -/
structure Traits where
  backslash : Bool
  lineBreak : Bool
  /-- A control character other than line break and tab. -/
  control : Bool
  /-- Length of the longest run of single quotes. -/
  singles : Nat
  /-- Length of the longest run of double quotes. -/
  doubles : Nat
  deriving DecidableEq, Repr

/-- Length of the longest run of a character, after a run of `current`. -/
def longestRun (c : Char) (current : Nat) : List Char → Nat
  | [] => current
  | d :: rest =>
    if d = c then longestRun c (current + 1) rest else max current (longestRun c 0 rest)

/-- Whether a character can only be written by its number or a short escape. -/
def isControl (c : Char) : Bool := !isPrintable c && c != '\n'

def traits (cs : List Char) : Traits where
  backslash := cs.contains '\\'
  lineBreak := cs.contains '\n'
  control := cs.any isControl
  singles := longestRun '\'' 0 cs
  doubles := longestRun '"' 0 cs

/-- The styles of a string literal. -/
inductive Style where
  | basic | literal | multiBasic | multiLiteral
  deriving DecidableEq, Repr, Inhabited

/-- The first style that needs no escapes, simple quotes before threefold ones; if none does,
double quotes. -/
def Traits.style (t : Traits) : Style :=
  if !t.control && !t.backslash && t.doubles == 0 && !t.lineBreak then .basic
  else if !t.control && t.singles == 0 && !t.lineBreak then .literal
  else if !t.control && !t.backslash && t.doubles ≤ 2 then .multiBasic
  else if !t.control && t.singles ≤ 2 then .multiLiteral
  else if t.lineBreak then .multiBasic
  else .basic

def upperHexDigit (n : Nat) : Char := if n < 10 then Char.ofNat (48 + n) else Char.ofNat (55 + n)

/-- A character other than a double quote, inside double quotes. -/
def escapeChar (multiline : Bool) (c : Char) : List Char :=
  if c = '\x08' then ['\\', 'b']
  else if c = '\t' then ['\\', 't']
  else if c = '\n' then (if multiline then ['\n'] else ['\\', 'n'])
  else if c = '\x0c' then ['\\', 'f']
  else if c = '\r' then ['\\', 'r']
  else if c = '\\' then ['\\', '\\']
  else if isPrintable c then [c]
  else ['\\', 'u', '0', '0', upperHexDigit (c.toNat / 16), upperHexDigit (c.toNat % 16)]

/-- A text inside double quotes, of which at most `allowed` may stand bare in a row; `bare` of them
stand before the text. -/
def escape (multiline : Bool) (allowed : Nat) (bare : Nat) : List Char → List Char
  | [] => []
  | c :: rest =>
    if c = '"' then
      if bare < allowed then '"' :: escape multiline allowed (bare + 1) rest
      else '\\' :: '"' :: escape multiline allowed 0 rest
    else escapeChar multiline c ++ escape multiline allowed 0 rest

/-- A text in the given style. Threefold quotes open with a line break, which is not part of the
text. -/
def write : Style → List Char → List Char
  | .basic, cs => '"' :: escape false 0 0 cs ++ ['"']
  | .literal, cs => '\'' :: cs ++ ['\'']
  | .multiBasic, cs => ['"', '"', '"', '\n'] ++ escape true 2 0 cs ++ ['"', '"', '"']
  | .multiLiteral, cs => ['\'', '\'', '\'', '\n'] ++ cs ++ ['\'', '\'', '\'']

/-- The string literal of a text. -/
def quote (s : String) : String := String.ofList (write (traits s.toList).style s.toList)

end Wiring.Toml
