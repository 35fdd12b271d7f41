import Wiring.Yaml.Token
/-! Nodes of a YAML document. An alias stands for the node of its anchor. -/
namespace Wiring.Yaml

inductive Node where
  | scalar (style : ScalarStyle) (tag : Option String) (text : String)
  | sequence (tag : Option String) (items : List Node)
  | mapping (tag : Option String) (entries : List (Node × Node))
  /-- An alias inside the node that it stands for. -/
  | endless
  deriving Repr, Inhabited

/-- A node that is not written at all. -/
def Node.missing : Node := .scalar .plain none ""

/-- The tokens of a stream that are left, with what has been declared so far. -/
structure Stream where
  tokens : List Token
  /-- What the handles of tags stand for. -/
  handles : List (String × String) := []
  /-- Anchors in the order in which their nodes begin; a node is absent until it ends. -/
  anchors : Array (String × Option Node) := #[]

namespace Stream

def skip (s : Stream) : Stream := { s with tokens := s.tokens.drop 1 }

/-- The handles every document has. -/
def defaultHandles : List (String × String) := [("!", "!"), ("!!", "tag:yaml.org,2002:")]

/-- A tag in full: the text its handle stands for, then its suffix. -/
def expandTag? (s : Stream) (handle suffix : String) : Option String :=
  if handle.isEmpty then some suffix
  else (s.handles.lookup handle).map fun start => start ++ suffix

/-- The anchor and the tag in front of a node, in either order. -/
def properties? (s : Stream) : Option (Option String × Option String × Stream) :=
  match s.tokens with
  | .anchor name :: .tag handle suffix :: rest =>
    (s.expandTag? handle suffix).map fun tag => (some name, some tag, { s with tokens := rest })
  | .tag handle suffix :: .anchor name :: rest =>
    (s.expandTag? handle suffix).map fun tag => (some name, some tag, { s with tokens := rest })
  | .anchor name :: rest => some (some name, none, { s with tokens := rest })
  | .tag handle suffix :: rest =>
    (s.expandTag? handle suffix).map fun tag => (none, some tag, { s with tokens := rest })
  | _ => some (none, none, s)

/-- The node of the anchor that began last under a name. -/
def resolve? (s : Stream) (name : String) : Option Node :=
  (s.anchors.findRev? fun entry => entry.1 == name).map fun entry => entry.2.getD .endless

/-- Notes that the node of an anchor begins; gives the number of the anchor. -/
def beginAnchor (s : Stream) : Option String → Option Nat × Stream
  | some name => (some s.anchors.size, { s with anchors := s.anchors.push (name, none) })
  | none => (none, s)

/-- Notes that the node of an anchor has ended. -/
def endAnchor (s : Stream) (number : Option Nat) (node : Node) : Stream :=
  match number with
  | some n => { s with anchors := s.anchors.modify n fun entry => (entry.1, some node) }
  | none => s

end Stream

/-- Tokens that end the key or value of a block mapping before it begins. -/
def Token.endsBlockPair : Token → Bool
  | .key | .value | .blockEnd => true
  | _ => false

/-- Tokens that end the item of a block sequence before it begins. -/
def Token.endsBlockItem : Token → Bool
  | .blockEntry | .blockEnd => true
  | _ => false

/-- Tokens that end the item of a sequence without indentation of its own before it begins. -/
def Token.endsIndentlessItem (t : Token) : Bool := t.endsBlockItem || t.endsBlockPair

/-- Tokens that end the key or value of a flow mapping before it begins. -/
def Token.endsFlowPair (t : Token) : Bool :=
  t == .value || t == .flowEntry || t == .flowMappingEnd

/-- Tokens that end the key or value of a single pair in a flow sequence before it begins. -/
def Token.endsSinglePair (t : Token) : Bool :=
  t == .value || t == .flowEntry || t == .flowSequenceEnd

mutual

/-- One node. Block collections and sequences without indentation are read where they may stand. -/
def node? (block indentless : Bool) : Nat → Stream → Option (Node × Stream)
  | 0, _ => none
  | fuel + 1, s =>
    match s.tokens with
    | .alias name :: _ => (s.resolve? name).map fun node => (node, s.skip)
    | _ => do
      let (anchor, tag, s) ← s.properties?
      let (number, s) := s.beginAnchor anchor
      let (node, s) ← content? block indentless anchor.isSome tag fuel s
      return (node, s.endAnchor number node)

/-- A node after its anchor and tag. A node with either may be empty. -/
def content? (block indentless anchored : Bool) (tag : Option String) :
    Nat → Stream → Option (Node × Stream)
  | 0, _ => none
  | fuel + 1, s =>
    match s.tokens with
    | .scalar style text :: _ => some (.scalar style tag text, s.skip)
    | .flowSequenceStart :: _ => flowItems? true fuel s.skip [] |>.map fun (items, s) =>
        (.sequence tag items, s)
    | .flowMappingStart :: _ => flowPairs? true fuel s.skip [] |>.map fun (entries, s) =>
        (.mapping tag entries, s)
    | t :: _ =>
      if indentless && t == .blockEntry then
        indentlessItems? fuel s [] |>.map fun (items, s) => (.sequence tag items, s)
      else if block && t == .blockSequenceStart then
        blockItems? fuel s.skip [] |>.map fun (items, s) => (.sequence tag items, s)
      else if block && t == .blockMappingStart then
        blockPairs? fuel s.skip [] |>.map fun (entries, s) => (.mapping tag entries, s)
      else if anchored || tag.isSome then some (.scalar .plain tag "", s)
      else none
    | [] => if anchored || tag.isSome then some (.scalar .plain tag "", s) else none

/-- A node, or a missing one when a token with the property comes first. -/
def nodeUnless? (block indentless : Bool) (ends : Token → Bool) :
    Nat → Stream → Option (Node × Stream)
  | 0, _ => none
  | fuel + 1, s =>
    match s.tokens with
    | t :: _ => if ends t then some (.missing, s) else node? block indentless fuel s
    | [] => node? block indentless fuel s

/-- The rest of a block sequence. -/
def blockItems? : Nat → Stream → List Node → Option (List Node × Stream)
  | 0, _, _ => none
  | fuel + 1, s, before =>
    match s.tokens with
    | .blockEntry :: _ => do
      let (node, s) ← nodeUnless? true false Token.endsBlockItem fuel s.skip
      blockItems? fuel s (node :: before)
    | .blockEnd :: _ => some (before.reverse, s.skip)
    | _ => none

/-- The rest of a sequence whose dashes stand as deep as the key before it. -/
def indentlessItems? : Nat → Stream → List Node → Option (List Node × Stream)
  | 0, _, _ => none
  | fuel + 1, s, before =>
    match s.tokens with
    | .blockEntry :: _ => do
      let (node, s) ← nodeUnless? true false Token.endsIndentlessItem fuel s.skip
      indentlessItems? fuel s (node :: before)
    | _ => some (before.reverse, s)

/-- The rest of a block mapping. A value may come without a key, and a key without a value. -/
def blockPairs? : Nat → Stream → List (Node × Node) → Option (List (Node × Node) × Stream)
  | 0, _, _ => none
  | fuel + 1, s, before =>
    match s.tokens with
    | .key :: _ => do
      let (key, s) ← nodeUnless? true true Token.endsBlockPair fuel s.skip
      let (value, s) ← valueAfter? true true Token.endsBlockPair fuel s
      blockPairs? fuel s ((key, value) :: before)
    | .blockEnd :: _ => some (before.reverse, s.skip)
    | _ => none

/-- The value after a colon, or a missing one when no colon comes first. -/
def valueAfter? (block indentless : Bool) (ends : Token → Bool) :
    Nat → Stream → Option (Node × Stream)
  | 0, _ => none
  | fuel + 1, s =>
    match s.tokens with
    | .value :: _ => nodeUnless? block indentless ends fuel s.skip
    | _ => some (.missing, s)

/-- The rest of a flow sequence, whose next item is the first or comes after a comma. -/
def flowItems? (first : Bool) : Nat → Stream → List Node → Option (List Node × Stream)
  | 0, _, _ => none
  | fuel + 1, s, before =>
    match s.tokens with
    | .flowSequenceEnd :: _ => some (before.reverse, s.skip)
    | t :: _ =>
      if !first && t != .flowEntry then none
      else
        let s := if first then s else s.skip
        match s.tokens with
        | .flowSequenceEnd :: _ => some (before.reverse, s.skip)
        | .key :: _ => do
          let (pair, s) ← singlePair? fuel s.skip
          flowItems? false fuel s (pair :: before)
        | _ => do
          let (node, s) ← node? false false fuel s
          flowItems? false fuel s (node :: before)
    | [] => none

/-- A single pair in a flow sequence, which makes a mapping of its own. The token that stands in
for a missing key is used up with it. -/
def singlePair? : Nat → Stream → Option (Node × Stream)
  | 0, _ => none
  | fuel + 1, s => do
    let (key, s) ← match s.tokens with
      | t :: _ => if t.endsSinglePair then some (.missing, s.skip) else node? false false fuel s
      | [] => none
    let (value, s) ← valueAfter? false false
      (fun t => t == .flowEntry || t == .flowSequenceEnd) fuel s
    return (.mapping none [(key, value)], s)

/-- The rest of a flow mapping, whose next pair is the first or comes after a comma. -/
def flowPairs? (first : Bool) :
    Nat → Stream → List (Node × Node) → Option (List (Node × Node) × Stream)
  | 0, _, _ => none
  | fuel + 1, s, before =>
    match s.tokens with
    | .flowMappingEnd :: _ => some (before.reverse, s.skip)
    | t :: _ =>
      if !first && t != .flowEntry then none
      else
        let s := if first then s else s.skip
        match s.tokens with
        | .flowMappingEnd :: _ => some (before.reverse, s.skip)
        | .key :: _ => do
          let (key, s) ← nodeUnless? false false Token.endsFlowPair fuel s.skip
          let (value, s) ← valueAfter? false false
            (fun t => t == .flowEntry || t == .flowMappingEnd) fuel s
          flowPairs? false fuel s ((key, value) :: before)
        | _ => do
          let (key, s) ← node? false false fuel s
          flowPairs? false fuel s ((key, .missing) :: before)
    | [] => none

end

/-- The directives in front of a document. One version directive is allowed, for 1.1 or 1.2, and
one tag directive for a handle. -/
def directives? : Nat → Bool → List (String × String) → List Token →
    Option (List (String × String) × List Token)
  | fuel + 1, versioned, handles, .versionDirective major minor :: rest =>
    if versioned || major != 1 || !(minor == 1 || minor == 2) then none
    else directives? fuel true handles rest
  | fuel + 1, versioned, handles, .tagDirective handle start :: rest =>
    if handles.any (fun entry => entry.1 == handle) then none
    else directives? fuel versioned (handles ++ [(handle, start)]) rest
  | _, _, handles, tokens => some (handles, tokens)

/-- Tokens that end a document before its content begins. -/
def Token.endsDocument : Token → Bool
  | .versionDirective _ _ | .tagDirective _ _ | .documentStart | .documentEnd => true
  | _ => false

/-- The content of a document whose marks have been read. -/
def documentContent? (fuel : Nat) (s : Stream) : Option (Node × Stream) :=
  match s.tokens with
  | [] => some (.missing, s)
  | t :: _ => if t.endsDocument then some (.missing, s) else node? true false fuel s

/-- The first document of a stream, which may do without a mark in front. -/
def firstDocument? (tokens : List Token) : Option (Node × List Token) := do
  let fuel := 4 * tokens.length + 8
  let (handles, rest) ← directives? (tokens.length + 1) false [] tokens
  let handles := handles ++ Stream.defaultHandles
  match rest with
  | .documentStart :: rest =>
    let (node, s) ← documentContent? fuel { tokens := rest, handles }
    return (node, s.tokens)
  | _ =>
    if rest.length < tokens.length then none
    let (node, s) ← node? true false fuel { tokens := rest, handles }
    return (node, s.tokens)

/-- The document of a stream that holds one, or none. -/
def document? (tokens : List Token) : Option (Option Node) :=
  if tokens.isEmpty then some none
  else do
    let (node, rest) ← firstDocument? tokens
    if rest.all fun t => t == .documentEnd then return some node
    none

end Wiring.Yaml
