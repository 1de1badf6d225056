import GraphqlBuild.Yaml.Token
/-!
# YAML documents

`document?` composes the tokens of a stream into the one document it holds. An alias is replaced by the node
that its anchor names; an anchor names its node only once the node is complete, so no node contains itself.
Each function of the grammar takes a token before it calls one for a smaller part, so the number of tokens
bounds the depth of the calls.

`document?` is what `parse_yaml` reads its fields from.
-/

namespace GraphqlBuild.Yaml

/-- A node of a document. -/
inductive Node
  /-- The text of a scalar, how it is written and its tag. -/
  | scalar (text : Text) (style : Style) (tag : Option Text)
  | sequence (items : List Node)
  | mapping (members : List (Node × Node))
deriving Repr, Inhabited

namespace Node

/-- The node where one is left out. -/
def blank : Node := .scalar [] .plain none

end Node

/-! ## The tokens ahead and the names known -/

/-- What composing depends on. -/
structure Composer where
  tokens : List Token
  /-- The prefixes of the tag handles. -/
  handles : List (Text × Text) := []
  /-- The anchors, latest first, each with a number of its own. -/
  anchors : List (Text × Nat) := []
  /-- The complete nodes that have an anchor, by its number. -/
  nodes : List (Nat × Node) := []
deriving Repr

/-- A step of composing; `none` if the stream is refused. -/
abbrev Compose := StateT Composer Option

namespace Compose

/-- The next token. -/
def peek : Compose (Option Token) := return (← get).tokens.head?

/-- Takes the next token. -/
def advance : Compose Unit := modify fun s => { s with tokens := s.tokens.tail }

/-- Takes the next token if it is this one, and says whether it was. -/
def accept (token : Token) : Compose Bool := do
  if (← peek) = some token then
    advance
    return true
  return false

/-- Takes the next token, which must be this one. -/
def expect (token : Token) : Compose Unit := do
  if ← accept token then return () else failure

/-- The next token is one of these, or there is none. -/
def isBefore (tokens : List Token) : Compose Bool := do
  match ← peek with
  | none => return true
  | some t => return decide (t ∈ tokens)

/-- Takes an anchor, if one is next, and gives its number. -/
def anchor? : Compose (Option Nat) := do
  match ← peek with
  | some (.anchor name) =>
    advance
    let number := (← get).anchors.length
    modify fun s => { s with anchors := (name, number) :: s.anchors }
    return some number
  | _ => return none

/-- Lets the anchor name the node. -/
def complete (anchor : Option Nat) (node : Node) : Compose Node := do
  match anchor with
  | none => return node
  | some number =>
    modify fun s => { s with nodes := (number, node) :: s.nodes }
    return node

/-- The node that an alias stands for. -/
def resolve (name : Text) : Compose Node := do
  let s ← get
  match (s.anchors.lookup name).bind fun number => s.nodes.lookup number with
  | some node => return node
  | none => failure

/-- Takes a tag, if one is next; its handle must be known. -/
def tag? : Compose (Option Text) := do
  match ← peek with
  | some (.tag form) =>
    advance
    if form.handle.isEmpty then return some form.suffix
    match (← get).handles.lookup form.handle with
    | some start => return some (start ++ form.suffix)
    | none => failure
  | _ => return none

/-- Takes the tag and the anchor of a node, in either order. -/
def properties : Compose (Option Nat × Option Text) := do
  match ← anchor? with
  | some number => return (some number, ← tag?)
  | none =>
    let tag ← tag?
    return (← anchor?, tag)

end Compose

/-! ## Nodes -/

open Compose

/-- Where a node stands. -/
inductive Place
  | block
  /-- A key or value of a block mapping, where the entries of a sequence need no deeper indentation. -/
  | member
  | flow
deriving DecidableEq, Repr

mutual

/-- A node. -/
def readNode : Nat → Place → Compose Node
  | 0, _ => failure
  | n + 1, place => do
    match ← peek with
    | some (.alias name) =>
      advance
      resolve name
    | _ =>
      let (anchor, tag) ← properties
      match ← peek, place with
      | some .blockEntry, .member => complete anchor (.sequence (← readFlatItems n))
      | some (.scalar text style), _ =>
        advance
        complete anchor (.scalar text style tag)
      | some .flowSequenceStart, _ =>
        advance
        complete anchor (.sequence (← readFlowItems n true))
      | some .flowMappingStart, _ =>
        advance
        complete anchor (.mapping (← readFlowMembers n true))
      | some .blockSequenceStart, .block | some .blockSequenceStart, .member =>
        advance
        complete anchor (.sequence (← readItems n))
      | some .blockMappingStart, .block | some .blockMappingStart, .member =>
        advance
        complete anchor (.mapping (← readMembers n))
      | _, _ =>
        if anchor.isSome || tag.isSome then complete anchor (.scalar [] .plain tag) else failure

/-- A node, unless one of these tokens is next. -/
def readNodeBefore : Nat → Place → List Token → Compose Node
  | 0, _, _ => failure
  | n + 1, place, stops => do
    if ← isBefore stops then return .blank else readNode n place

/-- The items of a block sequence, up to its end. -/
def readItems : Nat → Compose (List Node)
  | 0 => failure
  | n + 1 => do
    if ← accept .blockEntry then
      let item ← readNodeBefore n .block [.blockEntry, .blockEnd]
      return item :: (← readItems n)
    else
      expect .blockEnd
      return []

/-- The items of a sequence that is not indented. -/
def readFlatItems : Nat → Compose (List Node)
  | 0 => failure
  | n + 1 => do
    if ← accept .blockEntry then
      let item ← readNodeBefore n .block [.blockEntry, .key, .value, .blockEnd]
      return item :: (← readFlatItems n)
    else return []

/-- The members of a block mapping, up to its end. -/
def readMembers : Nat → Compose (List (Node × Node))
  | 0 => failure
  | n + 1 => do
    if ← accept .key then
      let key ← readNodeBefore n .member [.key, .value, .blockEnd]
      let value ← readValue n .member [.key, .value, .blockEnd]
      return (key, value) :: (← readMembers n)
    else
      expect .blockEnd
      return []

/-- The value of a key. -/
def readValue : Nat → Place → List Token → Compose Node
  | 0, _, _ => failure
  | n + 1, place, stops => do
    if ← accept .value then readNodeBefore n place stops else return .blank

/-- The items of a flow sequence, up to its end. A key among them begins a mapping of one member. -/
def readFlowItems : Nat → Bool → Compose (List Node)
  | 0, _ => failure
  | n + 1, first => do
    if ← accept .flowSequenceEnd then return []
    if !first then expect .flowEntry
    if ← accept .flowSequenceEnd then return []
    let item ←
      if ← accept .key then
        let key ← readNodeBefore n .flow [.value, .flowEntry, .flowSequenceEnd]
        let value ← readValue n .flow [.flowEntry, .flowSequenceEnd]
        pure (Node.mapping [(key, value)])
      else readNode n .flow
    return item :: (← readFlowItems n false)

/-- The members of a flow mapping, up to its end. -/
def readFlowMembers : Nat → Bool → Compose (List (Node × Node))
  | 0, _ => failure
  | n + 1, first => do
    if ← accept .flowMappingEnd then return []
    if !first then expect .flowEntry
    if ← accept .flowMappingEnd then return []
    let member ←
      if ← accept .key then
        let key ← readNodeBefore n .flow [.value, .flowEntry, .flowMappingEnd]
        let value ← readValue n .flow [.flowEntry, .flowMappingEnd]
        pure (key, value)
      else pure (← readNode n .flow, Node.blank)
    return member :: (← readFlowMembers n false)

end

/-! ## Documents -/

/-- The handles that need no directive. -/
def commonHandles : List (Text × Text) := [("!", "!"), ("!!", "tag:yaml.org,2002:")]

/-- The directives in front of a document, each at most once; whether there are any. -/
def readDirectives : Nat → Bool → Compose Bool
  | 0, _ => failure
  | n + 1, versioned => do
    match ← peek with
    | some .versionDirective =>
      if versioned then failure
      advance
      discard (readDirectives n true)
      return true
    | some (.tagDirective handle start) =>
      if ((← get).handles.lookup handle).isSome then failure
      advance
      modify fun s => { s with handles := (handle, start) :: s.handles }
      discard (readDirectives n versioned)
      return true
    | _ => return false

/-- Takes the markers of the document's end. -/
def skipEnds : Compose Unit :=
  modify fun s => { s with tokens := s.tokens.dropWhile (· = .documentEnd) }

/-- The only document of the stream; `none` if the stream is empty. -/
def readStream (n : Nat) : Compose (Option Node) := do
  if (← peek).isNone then return none
  let directives ← readDirectives n false
  modify fun s => { s with handles := s.handles ++ commonHandles }
  let marked ← accept .documentStart
  if directives && !marked then failure
  let node ←
    if marked then readNodeBefore n .block [.documentEnd] else readNode n .block
  skipEnds
  if (← peek).isSome then failure
  return some node

/-- The document that a text holds, `some none` if it holds none. -/
def document? (source : Text) : Option (Option Node) := do
  let tokens ← tokens? source
  let (document, _) ← (readStream (3 * tokens.length + 3)).run { tokens }
  return document

end GraphqlBuild.Yaml
