import Wiring.Yaml.Token.Text
import Wiring.Yaml.Token.Tag
/-! The token stream of a text. In block context the scanner keeps the columns of the open
collections; at each level of brackets it remembers the place where a simple key may have begun,
which must be followed by its colon on the same line and within 1024 characters. -/
namespace Wiring.Yaml

/-- A token that may turn out to be the start of a simple key. -/
structure PendingKey where
  /-- Nothing but a key can stand there. -/
  required : Bool
  /-- Number of the token. -/
  token : Nat
  index : Nat
  line : Nat
  column : Nat

structure Scanner where
  cursor : Cursor
  tokens : Array Token := #[]
  /-- Column of the innermost block collection, -1 outside of any. -/
  indent : Int := -1
  /-- Columns of the collections around it. -/
  outerIndents : List Int := []
  /-- Levels of brackets. -/
  flowLevel : Nat := 0
  /-- A simple key may begin here. -/
  keyAllowed : Bool := true
  /-- The pending key of this level of brackets. -/
  pending : Option PendingKey := none
  /-- Those of the levels around it. -/
  outerPending : List (Option PendingKey) := []

namespace Scanner

def inFlow (s : Scanner) : Bool := 0 < s.flowLevel

def column (s : Scanner) : Int := s.cursor.column

def emit (s : Scanner) (t : Token) : Scanner := { s with tokens := s.tokens.push t }

/-- Emits a token of `n` characters. -/
def emitSkip (s : Scanner) (n : Nat) (t : Token) : Scanner :=
  { s.emit t with cursor := s.cursor.skipBy n }

/-- Puts a token before the one with the given number. -/
def insertAt (s : Scanner) (n : Nat) (t : Token) : Scanner :=
  { s with tokens := s.tokens.insertIdxIfInBounds n t }

/-- A pending key is lost once its line or its 1024 characters are over. -/
def isStale (s : Scanner) (k : PendingKey) : Bool :=
  k.line < s.cursor.line || k.index + 1024 < s.cursor.index

/-- Drops a stale key, which must not have been required. -/
def refresh? (s : Scanner) : Option PendingKey → Option (Option PendingKey)
  | none => some none
  | some k => if s.isStale k then (if k.required then none else some none) else some (some k)

/-- Drops the stale keys of all levels. -/
def dropStale? (s : Scanner) : Option Scanner := do
  let pending ← s.refresh? s.pending
  let outerPending ← s.outerPending.mapM s.refresh?
  return { s with pending, outerPending }

/-- Gives up the pending key of this level, which must not be required. -/
def forgetKey? (s : Scanner) : Option Scanner :=
  if s.pending.any PendingKey.required then none else some { s with pending := none }

/-- Remembers the next token as a possible key. -/
def rememberKey? (s : Scanner) : Option Scanner :=
  if s.keyAllowed then do
    let s ← s.forgetKey?
    return { s with pending := some {
      required := !s.inFlow && s.indent == s.column
      token := s.tokens.size
      index := s.cursor.index
      line := s.cursor.line
      column := s.cursor.column } }
  else some s

/-- Opens a block collection at a column deeper than the open ones. The token goes to the end, or
before the token with the given number. -/
def openBlock (s : Scanner) (column : Int) (at? : Option Nat) (t : Token) : Scanner :=
  if s.inFlow || column ≤ s.indent then s
  else
    let s := { s with indent := column, outerIndents := s.indent :: s.outerIndents }
    match at? with
    | some n => if n < s.tokens.size then s.insertAt n t else s.emit t
    | none => s.emit t

/-- Closes the block collections deeper than a column. -/
def closeBlocksAux (column : Int) : List Int → Scanner → Scanner
  | [], s => s
  | outer :: rest, s =>
    if s.indent > column then
      closeBlocksAux column rest { s.emit .blockEnd with indent := outer, outerIndents := rest }
    else s

def closeBlocks (s : Scanner) (column : Int) : Scanner :=
  if s.inFlow then s else closeBlocksAux column s.outerIndents s

/-- Passes over white space and comments. A byte order mark before the text is passed over too and
leaves a column behind it. A tab counts as white space where no key may begin. -/
def skipToToken : Nat → Scanner → Scanner
  | 0, s => s
  | fuel + 1, s =>
    let c := s.cursor
    let c := if c.index == 0 && startsWith (· == '\uFEFF') c.rest then c.skip else c
    let tabs := s.inFlow || !s.keyAllowed
    let c := (c.takeWhile fun ch => ch == ' ' || (tabs && ch == '\t')).2
    let c := if startsWith (· == '#') c.rest then c.skipLine else c
    if startsWith isBreak c.rest then
      skipToToken fuel { s with cursor := c.readBreak.2, keyAllowed := s.keyAllowed || !s.inFlow }
    else { s with cursor := c }

/-- A token that ends all block collections and starts its own line. -/
def atLineStart? (s : Scanner) : Option Scanner := do
  let s ← (s.closeBlocks (-1)).forgetKey?
  return { s with keyAllowed := false }

def openBracket? (s : Scanner) (t : Token) : Option Scanner := do
  let s ← s.rememberKey?
  return { s.emitSkip 1 t with
    outerPending := s.pending :: s.outerPending
    pending := none
    flowLevel := s.flowLevel + 1
    keyAllowed := true }

def closeBracket? (s : Scanner) (t : Token) : Option Scanner := do
  let s ← s.forgetKey?
  let s := { s.emitSkip 1 t with keyAllowed := false }
  match s.outerPending with
  | pending :: outer =>
    return { s with pending, outerPending := outer, flowLevel := s.flowLevel - 1 }
  | [] => return s

def flowEntry? (s : Scanner) : Option Scanner := do
  let s ← s.forgetKey?
  return { s.emitSkip 1 .flowEntry with keyAllowed := true }

def blockEntry? (s : Scanner) : Option Scanner := do
  if !s.inFlow && !s.keyAllowed then none
  let s ← (s.openBlock s.column none .blockSequenceStart).forgetKey?
  return { s.emitSkip 1 .blockEntry with keyAllowed := true }

def key? (s : Scanner) : Option Scanner := do
  if !s.inFlow && !s.keyAllowed then none
  let s ← (s.openBlock s.column none .blockMappingStart).forgetKey?
  return { s.emitSkip 1 .key with keyAllowed := !s.inFlow }

/-- A colon turns the pending key into a key, or follows a key that was announced. -/
def value? (s : Scanner) : Option Scanner :=
  match s.pending with
  | some k =>
    let s := if k.token < s.tokens.size then s.insertAt k.token .key else s.emit .key
    let s := s.openBlock k.column (some k.token) .blockMappingStart
    some { s.emitSkip 1 .value with pending := none, keyAllowed := false }
  | none =>
    if !s.inFlow && !s.keyAllowed then none
    else
      let s := s.openBlock s.column none .blockMappingStart
      some { s.emitSkip 1 .value with keyAllowed := !s.inFlow }

def directive? (fuel : Nat) (s : Scanner) : Option Scanner := do
  let s ← s.atLineStart?
  let (token, cursor) ← scanDirective? fuel s.cursor.skip
  return { s.emit token with cursor }

def documentMark? (s : Scanner) (t : Token) : Option Scanner := do
  return (← s.atLineStart?).emitSkip 3 t

/-- An alias or anchor. -/
def named? (s : Scanner) (make : String → Token) : Option Scanner := do
  let s ← s.rememberKey?
  let (name, cursor) ← scanName? s.cursor.skip
  return { s.emit (make name) with cursor, keyAllowed := false }

def tag? (fuel : Nat) (s : Scanner) : Option Scanner := do
  let s ← s.rememberKey?
  let (token, cursor) ← scanTag? s.inFlow fuel s.cursor
  return { s.emit token with cursor, keyAllowed := false }

def blockScalar? (fuel : Nat) (s : Scanner) (folded : Bool) : Option Scanner := do
  let s ← s.forgetKey?
  let (text, cursor) ← scanBlock? folded s.indent fuel s.cursor.skip
  let style := if folded then .folded else .literal
  return { s.emit (.scalar style (String.ofList text)) with cursor, keyAllowed := true }

def quotedScalar? (fuel : Nat) (s : Scanner) (single : Bool) : Option Scanner := do
  let s ← s.rememberKey?
  let (text, cursor) ← scanQuoted? single fuel s.cursor.skip []
  let style := if single then .singleQuoted else .doubleQuoted
  return { s.emit (.scalar style (String.ofList text.reverse)) with cursor, keyAllowed := false }

/-- A plain scalar; a key may begin after it when it ends after a line break. -/
def plainScalar? (fuel : Nat) (s : Scanner) : Option Scanner := do
  let s ← s.rememberKey?
  let (text, broken, cursor) ← scanPlain? s.inFlow s.indent fuel s.cursor [] {}
  return { s.emit (.scalar .plain (String.ofList text.reverse)) with cursor, keyAllowed := broken }

/-- Whether a plain scalar may begin with the next character. -/
def startsPlain (s : Scanner) : Bool :=
  match s.cursor.rest with
  | [] => false
  | '-' :: rest => !startsWith isBlank rest
  | '?' :: rest => !s.inFlow && !atBlankOrEnd rest
  | ':' :: rest => !s.inFlow && !atBlankOrEnd rest
  | c :: _ => !(isBlank c || isBreak c || ",[]{}#&*!|>'\"%@`".toList.contains c)

/-- The next token, which begins at the cursor. -/
def token? (fuel : Nat) (s : Scanner) : Option Scanner :=
  let rest := s.cursor.rest
  if s.cursor.column == 0 && startsWith (· == '%') rest then s.directive? fuel
  else if s.cursor.column == 0 && atDocumentMark rest then
    s.documentMark? (if startsWith (· == '-') rest then .documentStart else .documentEnd)
  else
    match rest with
    | '[' :: _ => s.openBracket? .flowSequenceStart
    | '{' :: _ => s.openBracket? .flowMappingStart
    | ']' :: _ => s.closeBracket? .flowSequenceEnd
    | '}' :: _ => s.closeBracket? .flowMappingEnd
    | ',' :: _ => s.flowEntry?
    | '*' :: _ => s.named? .alias
    | '&' :: _ => s.named? .anchor
    | '!' :: _ => s.tag? fuel
    | '\'' :: _ => s.quotedScalar? fuel true
    | '"' :: _ => s.quotedScalar? fuel false
    | c :: after =>
      if c == '-' && atBlankOrEnd after then s.blockEntry?
      else if c == '?' && (s.inFlow || atBlankOrEnd after) then s.key?
      else if c == ':' && (s.inFlow || atBlankOrEnd after) then s.value?
      else if c == '|' && !s.inFlow then s.blockScalar? fuel false
      else if c == '>' && !s.inFlow then s.blockScalar? fuel true
      else if s.startsPlain then s.plainScalar? fuel
      else none
    | [] => none

/-- The end of the text: every block collection closes. -/
def finish? (s : Scanner) : Option (Array Token) :=
  ((s.closeBlocks (-1)).forgetKey?).map Scanner.tokens

/-- Token after token to the end of the text, each taking a character at least. -/
def run? : Nat → Scanner → Option (Array Token)
  | 0, _ => none
  | fuel + 1, s => do
    let s ← (skipToToken (fuel + 1) s).dropStale?
    let s := s.closeBlocks s.column
    if s.cursor.rest.isEmpty then s.finish?
    else run? fuel (← s.token? (fuel + 1))

end Scanner

/-- The tokens of a text, if every character may stand in one and every token is well formed. -/
def Token.scan? (text : String) : Option (Array Token) :=
  let cs := text.toList
  if cs.all isPrintable then Scanner.run? (cs.length + 2) { cursor := { rest := cs } } else none

end Wiring.Yaml
