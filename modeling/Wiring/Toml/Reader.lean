import Wiring.Toml.Bare
import Wiring.Toml.Quoted
/-! Reads TOML documents: a line opens a table, assigns a value, or is blank. -/
namespace Wiring.Toml

def skipWhite (cs : List Char) : List Char := cs.dropWhile isWhite

/-- What follows the end of a line, which may hold a comment. -/
def lineEnd? (cs : List Char) : Option (List Char) :=
  let rest := match skipWhite cs with
    | '#' :: comment => comment.dropWhile isPrintable
    | rest => rest
  match rest with
  | [] => some []
  | '\n' :: rest => some rest
  | '\r' :: '\n' :: rest => some rest
  | _ => none

/-- A character of a key without quotes. -/
def isKeyChar (c : Char) : Bool := c.isAlphanum || c == '_' || c == '-'

/-- One part of a key. A quoted part stands on one line. -/
def keyPart? (cs : List Char) : Option (String × List Char) :=
  let read := match cs with
    | '"' :: rest => basic? .outside rest
    | '\'' :: rest => literal? rest
    | _ => if (cs.takeWhile isKeyChar).isEmpty then none
      else some (cs.takeWhile isKeyChar, cs.dropWhile isKeyChar)
  read.map fun (part, rest) => (String.ofList part, rest)

/-- A key of at most `bound` parts with points between them, and white space around each. -/
def key? : Nat → List Char → Option (List String × List Char)
  | 0, _ => none
  | bound + 1, cs =>
    match keyPart? (skipWhite cs) with
    | none => none
    | some (part, rest) =>
      match skipWhite rest with
      | '.' :: more => (key? bound more).map fun (parts, rest) => (part :: parts, rest)
      | rest => some ([part], rest)

/-- The most parts of a key, and the most levels of brackets in a value. -/
def maxDepth : Nat := 79

/-- The parts of a key before the last one, and the last. -/
def splitKey? (parts : List String) : Option (List String × String) :=
  parts.getLast?.map fun last => (parts.dropLast, last)

/-- A key and the equals sign after it. -/
def assigned? (cs : List Char) : Option ((List String × String) × List Char) :=
  match key? maxDepth cs with
  | some (parts, '=' :: rest) => (splitKey? parts).map fun key => (key, rest)
  | _ => none

/-- Without the white space, line breaks and comments in front, of which `comment` tells whether
one has begun. -/
def skipLines? (comment : Bool) : List Char → Option (List Char)
  | [] => if comment then none else some []
  | c :: rest =>
    if c = '\n' then skipLines? false rest
    else if c = '\r' then (if rest.head? = some '\n' then skipLines? false rest else none)
    else if comment then (if isPrintable c then skipLines? true rest else none)
    else if isWhite c then skipLines? false rest
    else if c = '#' then skipLines? true rest
    else some (c :: rest)

mutual

/-- The value at the start of a text, with at most `levels` levels of brackets. -/
def value? (levels : Nat) : Nat → List Char → Option (Toml × List Char)
  | 0, _ => none
  | fuel + 1, cs =>
    match cs with
    | '"' :: _ | '\'' :: _ => (quoted? cs).map fun (s, rest) => (.text s, rest)
    | '[' :: rest =>
      match levels with
      | 0 => none
      | levels + 1 =>
        match skipLines? false rest with
        | some (']' :: rest) => some (.array [], rest)
        | _ => (items? levels fuel rest).map fun (items, rest) => (.array items, rest)
    | '{' :: rest =>
      match levels with
      | 0 => none
      | levels + 1 =>
        match skipWhite rest with
        | '}' :: rest => some (.table .braces [], rest)
        | rest => (fields? levels fuel rest []).map fun (entries, rest) =>
            (.table .braces entries, rest)
    | _ => bare? cs

/-- The items of an array up to its closing bracket; a comma may follow the last one. -/
def items? (levels : Nat) : Nat → List Char → Option (List Toml × List Char)
  | 0, _ => none
  | fuel + 1, cs =>
    match skipLines? false cs with
    | none => none
    | some (']' :: rest) => some ([], rest)
    | some cs =>
      match value? levels fuel cs with
      | none => none
      | some (value, rest) =>
        match skipLines? false rest with
        | some (',' :: rest) =>
          (items? levels fuel rest).map fun (items, rest) => (value :: items, rest)
        | some (']' :: rest) => some ([value], rest)
        | _ => none

/-- The fields of a table in braces after the ones in `entries`, up to the closing brace. -/
def fields? (levels : Nat) : Nat → List Char → Entries → Option (Entries × List Char)
  | 0, _, _ => none
  | fuel + 1, cs, entries =>
    match assigned? cs with
    | none => none
    | some ((path, name), rest) =>
      match value? levels fuel (skipWhite rest) with
      | none => none
      | some (value, rest) =>
        match assign? path name value .braces entries with
        | none => none
        | some entries =>
          match skipWhite rest with
          | ',' :: rest => fields? levels fuel rest entries
          | '}' :: rest => some (entries, rest)
          | _ => none

end

/-- What one line says. -/
inductive Line where
  | blank
  | table (path : List String) (name : String)
  | element (path : List String) (name : String)
  | assignment (path : List String) (name : String) (value : Toml)
  deriving Repr, Inhabited

/-- A line, at the start of a text in which it may not be the last. -/
def line? (cs : List Char) : Option (Line × List Char) := do
  match skipWhite cs with
  | [] => return (.blank, [])
  | '#' :: _ | '\n' :: _ | '\r' :: _ => return (.blank, ← lineEnd? cs)
  | '[' :: '[' :: rest =>
    match ← key? maxDepth rest with
    | (parts, ']' :: ']' :: rest) =>
      let (path, name) ← splitKey? parts
      return (.element path name, ← lineEnd? rest)
    | _ => none
  | '[' :: rest =>
    match ← key? maxDepth rest with
    | (parts, ']' :: rest) =>
      let (path, name) ← splitKey? parts
      return (.table path name, ← lineEnd? rest)
    | _ => none
  | cs =>
    let ((path, name), rest) ← assigned? cs
    let (value, rest) ← value? maxDepth (2 * rest.length + 1) (skipWhite rest)
    return (.assignment path name value, ← lineEnd? rest)

/-- A document as far as it has been read: its entries, and the path of the table that is open. -/
structure Draft where
  entries : Entries := []
  path : List String := []

/-- Adds what one line says. -/
def Draft.add? (d : Draft) : Line → Option Draft
  | .blank => some d
  | .table path name =>
    (openTable? path name d.entries).map fun entries => ⟨entries, path ++ [name]⟩
  | .element path name =>
    (openElement? path name d.entries).map fun entries => ⟨entries, path ++ [name]⟩
  | .assignment path name value =>
    (change? false (assign? path name value) d.path .header d.entries).map fun entries =>
      { d with entries }

/-- Adds every line of a text, of which there are at most `bound`. -/
def Draft.addLines? : Nat → Draft → List Char → Option Draft
  | _, d, [] => some d
  | 0, _, _ => none
  | bound + 1, d, cs =>
    match line? cs with
    | some (line, rest) => (d.add? line).bind fun d => Draft.addLines? bound d rest
    | none => none

/-- Without a byte order mark. -/
def withoutMark : List Char → List Char
  | c :: rest => if c = '\ufeff' then rest else c :: rest
  | [] => []

/-- Reads a document; nothing when it is malformed or gives a name twice. -/
def parse? (text : String) : Option Entries :=
  let cs := withoutMark text.toList
  (Draft.addLines? cs.length {} cs).map Draft.entries

end Wiring.Toml
