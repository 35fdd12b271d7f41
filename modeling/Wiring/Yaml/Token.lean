import Wiring.Yaml.Scalar
import Wiring.Text.Decimal
/-! The tokens of YAML text. Indentation shows as tokens that open and close block collections; the
tokens of a simple key come before it, although the scanner learns of the key only at its colon. -/
namespace Wiring.Yaml

inductive Token where
  | versionDirective (major minor : Nat)
  | tagDirective (handle start : String)
  | documentStart | documentEnd
  | blockSequenceStart | blockMappingStart | blockEnd
  | flowSequenceStart | flowSequenceEnd | flowMappingStart | flowMappingEnd
  | blockEntry | flowEntry | key | value
  | alias (name : String)
  | anchor (name : String)
  | tag (handle suffix : String)
  | scalar (style : ScalarStyle) (text : String)
  deriving DecidableEq, Repr, Inhabited

/-- A place in the text, with the text after it. -/
structure Cursor where
  rest : List Char
  index : Nat := 0
  line : Nat := 0
  column : Nat := 0
  deriving Repr, Inhabited

def isBlank (c : Char) : Bool := c == ' ' || c == '\t'

def isBreak (c : Char) : Bool :=
  c == '\r' || c == '\n' || c == '\x85' || c == '\u2028' || c == '\u2029'

/-- Letters, digits, `_` and `-`. -/
def isWordChar (c : Char) : Bool := c.isAlphanum || c == '_' || c == '-'

/-- Characters YAML text may hold. -/
def isPrintable (c : Char) : Bool :=
  let n := c.toNat
  n == 0x09 || n == 0x0A || n == 0x0D || (0x20 ≤ n && n ≤ 0x7E) || n == 0x85
    || (0xA0 ≤ n && n ≤ 0xD7FF) || (0xE000 ≤ n && n ≤ 0xFFFD) || 0x10000 ≤ n

/-- Nothing, or a character with the property. -/
def atEndOr (p : Char → Bool) : List Char → Bool
  | [] => true
  | c :: _ => p c

/-- A character with the property comes first. -/
def startsWith (p : Char → Bool) : List Char → Bool
  | [] => false
  | c :: _ => p c

/-- A blank, a break or the end. -/
def atBlankOrEnd (cs : List Char) : Bool := atEndOr (fun c => isBlank c || isBreak c) cs

/-- A break or the end. -/
def atBreakOrEnd (cs : List Char) : Bool := atEndOr isBreak cs

/-- `---` or `...` as a word of its own. -/
def atDocumentMark : List Char → Bool
  | '-' :: '-' :: '-' :: rest => atBlankOrEnd rest
  | '.' :: '.' :: '.' :: rest => atBlankOrEnd rest
  | _ => false

namespace Cursor

/-- Past one character of the line. -/
def skip (c : Cursor) : Cursor :=
  { c with rest := c.rest.drop 1, index := c.index + 1, column := c.column + 1 }

def skipBy (c : Cursor) (n : Nat) : Cursor :=
  { c with rest := c.rest.drop n, index := c.index + n, column := c.column + n }

/-- Past a line break, if one comes next, with the break as it counts in a scalar. -/
def readBreak (c : Cursor) : List Char × Cursor :=
  let past (n : Nat) : Cursor :=
    { rest := c.rest.drop n, index := c.index + n, line := c.line + 1, column := 0 }
  match c.rest with
  | '\r' :: '\n' :: _ => (['\n'], past 2)
  | '\r' :: _ => (['\n'], past 1)
  | '\n' :: _ => (['\n'], past 1)
  | '\x85' :: _ => (['\n'], past 1)
  | '\u2028' :: _ => (['\u2028'], past 1)
  | '\u2029' :: _ => (['\u2029'], past 1)
  | _ => ([], c)

/-- Past the characters with a property, none of them a break, with those characters. -/
def takeWhile (c : Cursor) (p : Char → Bool) : List Char × Cursor :=
  let taken := c.rest.takeWhile p
  (taken, c.skipBy taken.length)

def skipBlanks (c : Cursor) : Cursor := (c.takeWhile isBlank).2

/-- Past everything up to the end of the line. -/
def skipLine (c : Cursor) : Cursor := (c.takeWhile fun ch => !isBreak ch).2

/-- Past the blanks, the comment and the break that may end a line; nothing else may come. -/
def finishLine? (c : Cursor) : Option Cursor :=
  let c := c.skipBlanks
  let c := if startsWith (· == '#') c.rest then c.skipLine else c
  if atBreakOrEnd c.rest then some c.readBreak.2 else none

end Cursor
end Wiring.Yaml
