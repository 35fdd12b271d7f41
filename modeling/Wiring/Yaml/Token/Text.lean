import Wiring.Yaml.Token
/-! The texts of scalars: plain, quoted and block. Line breaks inside plain and quoted scalars fold:
one becomes a space, and of several the first is dropped. Recursion is bounded by the number of
characters of the whole text, for every step takes one. -/
namespace Wiring.Yaml

/-- White space gathered between two parts of a scalar. -/
structure Gap where
  /-- Blanks on the line, as long as no break has come. -/
  blanks : List Char := []
  /-- Whether a break has come, so that blanks are indentation. -/
  broken : Bool := false
  leadingBreak : List Char := []
  trailingBreaks : List Char := []

namespace Gap

def isEmpty (g : Gap) : Bool := !g.broken && g.blanks.isEmpty

/-- What the gap becomes in the scalar. -/
def fold (g : Gap) : List Char :=
  if !g.broken then g.blanks
  else if g.leadingBreak == ['\n'] then
    if g.trailingBreaks.isEmpty then [' '] else g.trailingBreaks
  else g.leadingBreak ++ g.trailingBreaks

/-- Takes in a line break. -/
def addBreak (g : Gap) (text : List Char) : Gap :=
  if g.broken then { g with trailingBreaks := g.trailingBreaks ++ text }
  else { broken := true, leadingBreak := text }

/-- Takes in a blank. -/
def addBlank (g : Gap) (c : Char) : Gap :=
  if g.broken then g else { g with blanks := g.blanks ++ [c] }

end Gap

/-- Gathers blanks and breaks. With a least column, a tab before it after a break is refused. -/
def scanGap? (leastColumn : Option Int) : Nat → Cursor → Gap → Option (Gap × Cursor)
  | 0, _, _ => none
  | fuel + 1, c, gap =>
    match c.rest with
    | [] => some (gap, c)
    | ch :: _ =>
      if isBlank ch then
        let beforeText := leastColumn.any fun least => (c.column : Int) < least
        if gap.broken && ch == '\t' && beforeText then none
        else scanGap? leastColumn fuel c.skip (gap.addBlank ch)
      else if isBreak ch then
        let (text, c) := c.readBreak
        scanGap? leastColumn fuel c (gap.addBreak text)
      else some (gap, c)

/-- A flow indicator that ends a plain scalar inside brackets. -/
def isFlowIndicator (c : Char) : Bool :=
  c == ',' || c == '[' || c == ']' || c == '{' || c == '}'

/-- A run of a plain scalar without white space, in reverse before `text`. A colon ends it before
white space, and must not stand before an indicator inside brackets. -/
def scanPlainRun? (inFlow : Bool) : Nat → Cursor → List Char → Option (List Char × Cursor)
  | 0, _, _ => none
  | fuel + 1, c, text =>
    match c.rest with
    | [] => some (text, c)
    | ch :: rest =>
      if isBlank ch || isBreak ch then some (text, c)
      else if inFlow && ch == ':' && startsWith (fun n => isFlowIndicator n || n == '?') rest then
        none
      else if ch == ':' && atBlankOrEnd rest then some (text, c)
      else if inFlow && isFlowIndicator ch then some (text, c)
      else scanPlainRun? inFlow fuel c.skip (ch :: text)

/-- A plain scalar: its text in reverse, whether it ends after a line break, and the place after
the white space that follows it. -/
def scanPlain? (inFlow : Bool) (indent : Int) :
    Nat → Cursor → List Char → Gap → Option (List Char × Bool × Cursor)
  | 0, _, _, _ => none
  | fuel + 1, c, text, gap =>
    if (c.column == 0 && atDocumentMark c.rest) || startsWith (· == '#') c.rest then
      some (text, gap.broken, c)
    else do
      let (run, c) ← scanPlainRun? inFlow (fuel + 1) c []
      let text := if run.isEmpty then text else run ++ gap.fold.reverse ++ text
      let gap := if run.isEmpty then gap else {}
      if !startsWith (fun ch => isBlank ch || isBreak ch) c.rest then
        return (text, gap.broken, c)
      let (gap, c) ← scanGap? (some (indent + 1)) (fuel + 1) c gap
      if !inFlow && (c.column : Int) < indent + 1 then return (text, gap.broken, c)
      scanPlain? inFlow indent fuel c text gap

/-- A character that a backslash and a letter stand for in double quotes. -/
def quotedEscape? (c : Char) : Option Char :=
  [('0', '\x00'), ('a', '\x07'), ('b', '\x08'), ('t', '\t'), ('\t', '\t'), ('n', '\n'),
   ('v', '\x0b'), ('f', '\x0c'), ('r', '\r'), ('e', '\x1b'), (' ', ' '), ('"', '"'), ('/', '/'),
   ('\\', '\\'), ('N', '\x85'), ('_', '\xa0'), ('L', '\u2028'), ('P', '\u2029')].lookup c

/-- Digits that follow an escape by number. -/
def escapeLength? (c : Char) : Option Nat := [('x', 2), ('u', 4), ('U', 8)].lookup c

/-- The character of an escape by number, whose digits come first. -/
def numberedEscape? (length : Nat) (cs : List Char) : Option Char :=
  if (cs.take length).length < length then none
  else (Text.digits? 16 (cs.take length)).bind fun n =>
    if n > 0x10FFFF || (0xD800 ≤ n && n ≤ 0xDFFF) then none else some (Char.ofNat n)

/-- A run of a quoted scalar without white space, in reverse before `text`, and whether it ends
with an escaped line break. -/
def scanQuotedRun? (single : Bool) :
    Nat → Cursor → List Char → Option (List Char × Bool × Cursor)
  | 0, _, _ => none
  | fuel + 1, c, text =>
    match c.rest with
    | [] => some (text, false, c)
    | ch :: rest =>
      if isBlank ch || isBreak ch then some (text, false, c)
      else if single then
        if ch == '\'' then
          if startsWith (· == '\'') rest then scanQuotedRun? single fuel (c.skipBy 2) ('\'' :: text)
          else some (text, false, c)
        else scanQuotedRun? single fuel c.skip (ch :: text)
      else if ch == '"' then some (text, false, c)
      else if ch == '\\' then
        match rest with
        | [] => none
        | e :: more =>
          if isBreak e then some (text, true, c.skip.readBreak.2)
          else
            match escapeLength? e with
            | some length =>
              match numberedEscape? length more with
              | some escaped => scanQuotedRun? single fuel (c.skipBy (length + 2)) (escaped :: text)
              | none => none
            | none =>
              match quotedEscape? e with
              | some escaped => scanQuotedRun? single fuel (c.skipBy 2) (escaped :: text)
              | none => none
      else scanQuotedRun? single fuel c.skip (ch :: text)

/-- A quoted scalar after its opening quote: its text in reverse, and the place after it. -/
def scanQuoted? (single : Bool) : Nat → Cursor → List Char → Option (List Char × Cursor)
  | 0, _, _ => none
  | fuel + 1, c, text =>
    if (c.column == 0 && atDocumentMark c.rest) || c.rest.isEmpty then none
    else do
      let (text, escapedBreak, c) ← scanQuotedRun? single (fuel + 1) c text
      if startsWith (· == (if single then '\'' else '"')) c.rest then return (text, c.skip)
      let (gap, c) ← scanGap? none (fuel + 1) c { broken := escapedBreak }
      scanQuoted? single fuel c (gap.fold.reverse ++ text)

/-- What happens to the line breaks at the end of a block scalar. -/
inductive Chomping where
  | strip | clip | keep
  deriving DecidableEq, Repr, Inhabited

/-- The sign of a chomping indicator. -/
def chomping? : Char → Option Chomping
  | '+' => some .keep
  | '-' => some .strip
  | _ => none

/-- A digit that says how deep a block is indented; zero is refused. -/
def indentDigit? (cs : List Char) : Option (Option Nat) :=
  match cs with
  | c :: _ =>
    if c == '0' then none else if c.isDigit then some (some (c.toNat - 48)) else some none
  | [] => some none

/-- The indicators after `|` or `>`, in either order. -/
def blockHeader? (c : Cursor) : Option (Chomping × Option Nat × Cursor) :=
  match c.rest.head?.bind chomping? with
  | some chomping => do
    let c := c.skip
    match ← indentDigit? c.rest with
    | some n => return (chomping, some n, c.skip)
    | none => return (chomping, none, c)
  | none => do
    match ← indentDigit? c.rest with
    | some n =>
      let c := c.skip
      match c.rest.head?.bind chomping? with
      | some chomping => return (chomping, some n, c.skip)
      | none => return (.clip, some n, c)
    | none => return (.clip, none, c)

/-- Passes over the spaces of indentation, all of them while the depth is not settled. -/
def skipIndentation (indent : Nat) : Nat → Cursor → Cursor
  | 0, c => c
  | fuel + 1, c =>
    if (indent == 0 || c.column < indent) && startsWith (· == ' ') c.rest then
      skipIndentation indent fuel c.skip
    else c

/-- Passes over empty lines: their breaks, the deepest column met, and the place after them. A tab
in the indentation is refused. -/
def scanBlockBreaks? (indent : Nat) :
    Nat → Cursor → List Char → Nat → Option (List Char × Nat × Cursor)
  | 0, _, _, _ => none
  | fuel + 1, c, breaks, deepest =>
    let c := skipIndentation indent (fuel + 1) c
    let deepest := max deepest c.column
    if (indent == 0 || c.column < indent) && startsWith (· == '\t') c.rest then none
    else if startsWith isBreak c.rest then
      let (text, c) := c.readBreak
      scanBlockBreaks? indent fuel c (breaks ++ text) deepest
    else some (breaks, deepest, c)

/-- The lines of a block scalar at depth `indent`: the text in reverse, the break after the last
line, the breaks of the empty lines after that, and the place after them. -/
def scanBlockLines? (folded : Bool) (indent : Nat) :
    Nat → Cursor → List Char → List Char → List Char → Bool →
    Option (List Char × List Char × List Char × Cursor)
  | 0, _, _, _, _, _ => none
  | fuel + 1, c, text, leadingBreak, trailingBreaks, leadingBlank =>
    if c.column != indent || c.rest.isEmpty then some (text, leadingBreak, trailingBreaks, c)
    else do
      let trailingBlank := startsWith isBlank c.rest
      let joint :=
        if folded && leadingBreak == ['\n'] && !leadingBlank && !trailingBlank then
          if trailingBreaks.isEmpty then [' '] else []
        else leadingBreak
      let (line, c) := c.takeWhile fun ch => !isBreak ch
      let text := line.reverse ++ trailingBreaks.reverse ++ joint.reverse ++ text
      let (leadingBreak, c) := c.readBreak
      let (trailingBreaks, _, c) ← scanBlockBreaks? indent (fuel + 1) c [] 0
      scanBlockLines? folded indent fuel c text leadingBreak trailingBreaks trailingBlank

/-- A block scalar after its indicator, inside a block indented by `parent`. -/
def scanBlock? (folded : Bool) (parent : Int) (fuel : Nat) (c : Cursor) :
    Option (List Char × Cursor) := do
  let (chomping, increment, c) ← blockHeader? c
  let c ← c.finishLine?
  let announced : Nat := match increment with
    | some n => (if parent ≥ 0 then parent + n else n).toNat
    | none => 0
  let (breaks, deepest, c) ← scanBlockBreaks? announced fuel c [] 0
  let indent := if announced == 0 then max deepest (max (parent + 1).toNat 1) else announced
  let (text, leadingBreak, trailingBreaks, c) ←
    scanBlockLines? folded indent fuel c [] [] breaks false
  let tail := match chomping with
    | .strip => []
    | .clip => leadingBreak
    | .keep => leadingBreak ++ trailingBreaks
  return (text.reverse ++ tail, c)

end Wiring.Yaml
