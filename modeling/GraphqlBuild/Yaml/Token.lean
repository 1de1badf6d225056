import GraphqlBuild.Yaml.Tag
/-!
# YAML tokens

`tokens?` cuts a stream into tokens. Where a block collection begins or ends follows from indentation and
becomes a token of its own. A key is known by the colon behind it; so the place of each node that may turn
out to be one is remembered (`Candidate`), and when the colon is met, the tokens that announce the key are put
there.

They are the tokens of `parse_yaml`.
-/

namespace GraphqlBuild.Yaml

/-- A token of a stream. -/
inductive Token
  | versionDirective
  /-- The handle stands for the prefix in this document. -/
  | tagDirective (handle start : Text)
  | documentStart
  | documentEnd
  | blockSequenceStart
  | blockMappingStart
  | blockEnd
  | flowSequenceStart
  | flowSequenceEnd
  | flowMappingStart
  | flowMappingEnd
  | blockEntry
  | flowEntry
  | key
  | value
  | alias (name : Text)
  | anchor (name : Text)
  | tag (form : TagForm)
  | scalar (text : Text) (style : Style)
deriving DecidableEq, Repr

/-! ## Names and directives -/

/-- The name of an anchor or alias whose mark is at hand. -/
def readAnchorName (r : Reading) : Option (Text × Reading) :=
  let name := r.rest.tail.takeWhile isWordChar
  let after := r.skipMany (name.length + 1)
  let ends := after.isGap 0 || (after.ahead? 0).any fun c => ("?:,]\x7d%@\x60" : Text).contains c
  if !name.isEmpty && ends then some (name, after) else none

/-- A number of at most nine digits. -/
def readVersionPart (r : Reading) : Option (Nat × Reading) :=
  let digits := r.rest.takeWhile Char.isDigit
  if digits.isEmpty ∨ 9 < digits.length then none
  else some (digits.foldl (fun n c => n * 10 + (c.toNat - '0'.toNat)) 0, r.skipMany digits.length)

/-- The rest of a version directive. The versions known are 1.1 and 1.2. -/
def readVersion (r : Reading) : Option (Token × Reading) := do
  let (major, r) ← readVersionPart (r.skipWhile isBlank)
  if r.isAt '.' then
    let (minor, r) ← readVersionPart r.skip
    if major = 1 ∧ (minor = 1 ∨ minor = 2) then return (.versionDirective, r) else none
  else none

/-- The rest of a tag directive. -/
def readTagDirective (r : Reading) : Option (Token × Reading) := do
  let r := r.skipWhile isBlank
  if !r.isAt '!' then none
  else
    let (handle, r) := readHandle r
    if !isNamedHandle handle && handle != ['!'] || !(r.ahead? 0).any isBlank then none
    else
      let (start, r) ← readTagName true (r.skipWhile isBlank)
      if r.isGap 0 then return (.tagDirective handle start, r) else none

/-- The directive whose percent sign is at hand, up to the end of its line. -/
def readDirective (r : Reading) : Option (Token × Reading) := do
  let name := r.rest.tail.takeWhile isWordChar
  let after := r.skipMany (name.length + 1)
  if !after.isGap 0 then none
  else
    let (token, after) ←
      if name = ['Y', 'A', 'M', 'L'] then readVersion after
      else if name = ['T', 'A', 'G'] then readTagDirective after
      else none
    return (token, ← after.endLine?)

/-! ## The state between two tokens -/

/-- A node that is a key if a colon follows it on its line. -/
structure Candidate where
  /-- Nothing but a key can stand here. -/
  required : Bool
  /-- The number of tokens before the node. -/
  count : Nat
  line : Nat
  column : Nat
  index : Nat
deriving DecidableEq, Repr

/-- How many characters a key that no mark announces may have. -/
def Candidate.reach : Nat := 1024

/-- No colon that is still to come makes the node a key. -/
def Candidate.isStale (k : Candidate) (r : Reading) : Bool :=
  k.line < r.line || k.index + Candidate.reach < r.index

/-- The tokens so far, latest first, and what the next ones depend on. -/
structure Scan where
  reading : Reading
  tokens : List Token := []
  /-- The column of the innermost block collection; `-1` outside of all. -/
  indent : Int := -1
  /-- The same for the collections around it. -/
  outerIndents : List Int := []
  /-- The latest node that may be a key, in the innermost flow collection or else in the block. -/
  candidate : Option Candidate := none
  /-- The same for the flow collections around it and the block around them. -/
  outerCandidates : List (Option Candidate) := []
  /-- A key may begin here. -/
  keyAllowed : Bool := true
deriving Repr

namespace Scan

/-- The next token stands in a flow collection. -/
def inFlow (s : Scan) : Bool := !s.outerCandidates.isEmpty

/-- With one more token, whose text is the next `n` characters. -/
def emit (s : Scan) (token : Token) (n : Nat) : Scan :=
  { s with tokens := token :: s.tokens, reading := s.reading.skipMany n }

/-- With a token that reading found. -/
def put (s : Scan) (found : Token × Reading) : Scan :=
  { s with tokens := found.1 :: s.tokens, reading := found.2 }

/-- The tokens with one more behind the first `count`. -/
def insertAt (tokens : List Token) (count : Nat) (token : Token) : List Token :=
  let later := tokens.length - count
  tokens.take later ++ token :: tokens.drop later

/-- With whether a key may begin. -/
def allowKey (s : Scan) (allowed : Bool) : Scan := { s with keyAllowed := allowed }

/-- The latest node is no key; refused if it had to be one. -/
def dropCandidate (s : Scan) : Option Scan :=
  if s.candidate.any Candidate.required then none else some { s with candidate := none }

/-- The node that begins here may be a key. -/
def saveCandidate (s : Scan) : Option Scan :=
  if s.keyAllowed then do
    let s ← s.dropCandidate
    let r := s.reading
    let required := !s.inFlow && s.indent == (r.column : Int)
    return { s with candidate := some ⟨required, s.tokens.length, r.line, r.column, r.index⟩ }
  else some s

/-- The candidate, unless it is stale; refused if it is stale and had to be a key. -/
def fresh? (r : Reading) : Option Candidate → Option (Option Candidate)
  | none => some none
  | some k => if k.isStale r then (if k.required then none else some none) else some (some k)

/-- Without the stale candidates. -/
def dropStale (s : Scan) : Option Scan := do
  let candidate ← fresh? s.reading s.candidate
  let outerCandidates ← s.outerCandidates.mapM (fresh? s.reading)
  return { s with candidate, outerCandidates }

/-- Opens a block collection in front of the token behind the first `count` if it is indented more than the
one around it. -/
def openBlock (s : Scan) (column count : Nat) (token : Token) : Scan :=
  if !s.inFlow && decide (s.indent < column) then
    { s with
      tokens := insertAt s.tokens count token
      indent := column
      outerIndents := s.indent :: s.outerIndents }
  else s

/-- Opens a block collection here; a node may begin here only where a key may. -/
def openBlockHere (s : Scan) (token : Token) : Option Scan :=
  if s.inFlow then some s
  else if s.keyAllowed then some (s.openBlock s.reading.column s.tokens.length token)
  else none

/-- Closes the block collections that are indented more than `column`. -/
def closeBlocks (column : Int) (s : Scan) : Scan :=
  if s.inFlow then s else go s.outerIndents s
where
  go : List Int → Scan → Scan
    | [], s => s
    | outer :: more, s =>
      if column < s.indent then
        go more { s with tokens := .blockEnd :: s.tokens, indent := outer, outerIndents := more }
      else s

/-! ## Tokens by their first characters -/

/-- A document marker or directive ends all block collections. -/
def leaveBlocks (s : Scan) : Option Scan := do
  return (← (s.closeBlocks (-1)).dropCandidate).allowKey false

/-- Opens a flow collection. -/
def openFlow (s : Scan) (token : Token) : Option Scan := do
  let s ← s.saveCandidate
  return ({ s with
    candidate := none
    outerCandidates := s.candidate :: s.outerCandidates
    keyAllowed := true } : Scan).emit token 1

/-- Closes a flow collection. -/
def closeFlow (s : Scan) (token : Token) : Option Scan := do
  let s ← s.dropCandidate
  let s := match s.outerCandidates with
    | [] => s
    | candidate :: outer => { s with candidate, outerCandidates := outer }
  return (s.allowKey false).emit token 1

/-- An entry of a block sequence. -/
def readBlockEntry (s : Scan) : Option Scan := do
  let s ← (← s.openBlockHere .blockSequenceStart).dropCandidate
  return (s.allowKey true).emit .blockEntry 1

/-- A key that is announced. -/
def readKey (s : Scan) : Option Scan := do
  let s ← (← s.openBlockHere .blockMappingStart).dropCandidate
  return (s.allowKey !s.inFlow).emit .key 1

/-- A value, which makes the candidate a key. -/
def readValue (s : Scan) : Option Scan := do
  match s.candidate with
  | some k =>
    let s := { s with tokens := insertAt s.tokens k.count .key, candidate := none }
    let s := s.openBlock k.column k.count .blockMappingStart
    return (s.allowKey false).emit .value 1
  | none =>
    let s ← s.openBlockHere .blockMappingStart
    return (s.allowKey !s.inFlow).emit .value 1

/-- A node, or what stands before one, that may begin a key. -/
def readNode (s : Scan) (read : Reading → Option (Token × Reading)) : Option Scan := do
  let s ← s.saveCandidate
  return (s.allowKey false).put (← read s.reading)

/-- A plain scalar; behind a line break a key may begin again. -/
def readPlainNode (s : Scan) : Option Scan := do
  let s ← s.saveCandidate
  let r := s.reading
  let (text, after, broken) ← readPlain s.inFlow (s.indent + 1).toNat (r.rest.length + 1) {} r
  return (s.allowKey broken).put (.scalar text .plain, after)

/-- A block scalar. -/
def readBlockNode (s : Scan) (literal : Bool) : Option Scan := do
  let s ← s.dropCandidate
  let (text, after) ← readBlock literal s.indent s.reading.skip
  return (s.allowKey true).put (.scalar text (if literal then .literal else .folded), after)

/-- A quoted scalar. -/
def readQuotedToken (double : Bool) (r : Reading) : Option (Token × Reading) := do
  let (text, after) ← readQuoted double (r.rest.length + 1) r.skip
  return (.scalar text .quoted, after)

/-- The character cannot begin a plain scalar. -/
def isIndicator (c : Char) : Bool := ("-?:,[]\x7b\x7d#&*!|>'\"%@\x60" : Text).contains c

/-- The next token, which begins with `c`. -/
def step (c : Char) (s : Scan) : Option Scan :=
  let r := s.reading
  let flow := s.inFlow
  if r.column == 0 && c == '%' then do (← s.leaveBlocks).put <$> readDirective r
  else if r.isMarker '-' then do return (← s.leaveBlocks).emit .documentStart 3
  else if r.isMarker '.' then do return (← s.leaveBlocks).emit .documentEnd 3
  else if c == '[' then s.openFlow .flowSequenceStart
  else if c == '{' then s.openFlow .flowMappingStart
  else if c == ']' then s.closeFlow .flowSequenceEnd
  else if c == '}' then s.closeFlow .flowMappingEnd
  else if c == ',' then do return ((← s.dropCandidate).allowKey true).emit .flowEntry 1
  else if c == '-' && r.isGap 1 then s.readBlockEntry
  else if c == '?' && (flow || r.isGap 1) then s.readKey
  else if c == ':' && (flow || r.isGap 1) then s.readValue
  else if c == '*' then s.readNode fun r => (readAnchorName r).map fun p => (.alias p.1, p.2)
  else if c == '&' then s.readNode fun r => (readAnchorName r).map fun p => (.anchor p.1, p.2)
  else if c == '!' then s.readNode fun r => (readTag flow r).map fun p => (.tag p.1, p.2)
  else if c == '|' && !flow then s.readBlockNode true
  else if c == '>' && !flow then s.readBlockNode false
  else if c == quoteChar false then s.readNode (readQuotedToken false)
  else if c == quoteChar true then s.readNode (readQuotedToken true)
  else if !r.isGap 0 && !isIndicator c || c == '-' || !flow && (c == '?' || c == ':') then s.readPlainNode
  else none

/-- Skips what stands between two tokens, in at most `n` lines: blanks, comments, line breaks and a byte order
mark that begins a line, which takes up a column. Where a key may begin in a block, tabs are no blanks. -/
def skipToToken (flow : Bool) : Nat → Bool → Reading → Bool × Reading
  | 0, allowed, r => (allowed, r)
  | n + 1, allowed, r =>
    let r := if r.column == 0 && r.isAt '\ufeff' then r.skip else r
    let r := (r.skipWhile fun c => c == ' ' || (flow || !allowed) && c == '\t').skipComment
    if (r.ahead? 0).any isBreak then skipToToken flow n (allowed || !flow) r.skip else (allowed, r)

/-- All tokens to the end of the stream, at most `n` of them. -/
def run : Nat → Scan → Option (List Token)
  | 0, _ => none
  | n + 1, s => do
    let (keyAllowed, reading) := skipToToken s.inFlow (s.reading.rest.length + 1) s.keyAllowed s.reading
    let s ← ({ s with keyAllowed, reading } : Scan).dropStale
    match reading.rest with
    | [] => return (← s.leaveBlocks).tokens.reverse
    | c :: _ => run n (← (s.closeBlocks reading.column).step c)

end Scan

/-- The tokens of a text. -/
def tokens? (source : Text) : Option (List Token) :=
  if source.all isPrintable then
    let stream := unifyBreaks source
    Scan.run (stream.length + 1) { reading := { rest := stream } }
  else none

end GraphqlBuild.Yaml
