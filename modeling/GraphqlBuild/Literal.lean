import GraphqlBuild.Text.Blank
import GraphqlBuild.Text.Edit
import GraphqlBuild.Route
/-!
# Tagged literals

A tagged literal is a tag, a backtick, at least one character that is no backtick, and a backtick. The
scan reads a host module from left to right and takes the first tag of the list that fits; a literal whose
tag is the tail of a longer ASCII identifier is passed over whole and not reported. The pattern that is made of
the tags is assumed to compile, so the only fault in asking for literals is to give no tag.

| here | in the program |
| --- | --- |
| `EmbeddedText`, its `surrounding` | `ExtractedGraphQL` with its `SpliceContext`, `SpliceContext::surrounding` |
| `continuesIdentifier` | `is_identifier_char` |
| `Literal.openingWith?`, `Literal.opening?` | the pattern that `Extractor::new` builds |
| `Literal.scan`, `taggedLiterals` | the loop of `Extractor::extract`, `Extractor::extract` |
| `wholeFile`, `extract` | `whole_file`, `extract_from_source` |
| `ExtractError` | `ExtractError` |
| `spliceLiterals` | `splice_literals` |
-/

namespace GraphqlBuild

/-- What opens and closes a template literal. -/
def backtick : Char := '\x60'

/-- The character can continue an identifier of ASCII letters, digits, `_` and `$`. -/
def continuesIdentifier (c : Char) : Bool := c.isAlphanum || c == '_' || c == '$'

/-- A document's text inside a larger source. -/
structure EmbeddedText where
  /-- The text itself. -/
  source : Text
  /-- The tag in front of it, if it stands in a literal. -/
  tag : Option Text
  /-- From the tag to the closing backtick. -/
  literal : Span
  /-- What lies between the backticks. -/
  interior : Span
  /-- Where the interior starts and ends. -/
  range : PositionRange
deriving DecidableEq, Repr

namespace EmbeddedText

/-- The source before and after the interior; empty where the span does not fit the source. -/
def surrounding (e : EmbeddedText) (source : Text) : Text × Text :=
  ((source.slice? 0 e.interior.start).getD [],
    (source.slice? e.interior.stop source.size).getD [])

end EmbeddedText

namespace Literal

/-- A tag, the characters between the backticks, and the source after the closing one. -/
structure Opening where
  tag : Text
  body : Text
  rest : Text
deriving DecidableEq, Repr

/-- The literal that the source begins with, given its tag. -/
def openingWith? (tag source : Text) : Option Opening :=
  match Text.after? tag source with
  | some (first :: inner) =>
    if first = backtick then
      match inner.takeWhile (· != backtick), inner.dropWhile (· != backtick) with
      | _, [] | [], _ => none
      | body, _ :: rest => some ⟨tag, body, rest⟩
    else none
  | _ => none

/-- The literal that the source begins with, the tags tried in order. -/
def opening? (tags : List Text) (source : Text) : Option Opening :=
  tags.findSome? fun tag => openingWith? tag source

/-- A literal found by the scan: the offset of its tag, the tag and the body. -/
structure Found where
  offset : Nat
  tag : Text
  body : Text
deriving DecidableEq, Repr

/-- The literals of a source whose first `passed` characters are already read. `previous` is the
character before the source and `offset` the place of the source. -/
def scan (tags : List Text) (passed : Nat) (previous : Option Char) (offset : Nat) :
    Text → List Found
  | [] => []
  | c :: t =>
    match passed with
    | n + 1 => scan tags n (some c) (offset + c.utf8Size) t
    | 0 =>
      match opening? tags (c :: t) with
      | none => scan tags 0 (some c) (offset + c.utf8Size) t
      | some o =>
        let later := scan tags (o.tag.length + o.body.length + 1) (some c) (offset + c.utf8Size) t
        if previous.any continuesIdentifier then later else ⟨offset, o.tag, o.body⟩ :: later

/-- The found literal as a part of the source that the index belongs to. -/
def Found.embedded (index : LineIndex) (found : Found) : EmbeddedText :=
  let start := found.offset + found.tag.size + 1
  let interior := ⟨start, start + found.body.size⟩
  { source := found.body
    tag := some found.tag
    literal := ⟨found.offset, interior.stop + 1⟩
    interior
    range := index.range interior }

end Literal

/-- The tagged literals of a host module, in source order. -/
def taggedLiterals (tags : List Text) (source : Text) : List EmbeddedText :=
  (Literal.scan tags 0 none 0 source).map (Literal.Found.embedded (LineIndex.ofText source))

/-- The whole source as one document, without the blanks at its ends. -/
def wholeFile (source : Text) : EmbeddedText :=
  let all : Span := ⟨0, source.size⟩
  { source := source.trim
    tag := none
    literal := all
    interior := all
    range := (LineIndex.ofText source).range all }

/-- Why no scanner can be made: no tag is given. That the pattern made of the tags is refused (`InvalidPattern`) is
left out: the tags are escaped in it, so it is well-formed, and it is assumed to keep within the size that the pattern
compiler allows. -/
inductive ExtractError
  | noTags
deriving DecidableEq, Repr

/-- The wording of the error. -/
def ExtractError.message : ExtractError → Text
  | noTags => "No tag identifiers configured"

/-- The documents of a source. The pattern made of the tags is assumed to compile. -/
def extract (mode : SourceMode) (tags : List Text) (source : Text) :
    Except ExtractError (List EmbeddedText) :=
  match mode with
  | .wholeFile => .ok [wholeFile source]
  | .embeddedLiteral => if tags.isEmpty then .error .noTags else .ok (taggedLiterals tags source)

/-- The source with each interior replaced by the text beside it; a text that is already there makes no
edit. -/
def spliceLiterals (source : Text) (replacements : List (EmbeddedText × Text)) : Text :=
  let edits : List Edit := replacements.map fun r => ⟨r.1.interior, r.2⟩
  applyEdits source (edits.filter fun e => !e.isNoop source)

end GraphqlBuild
