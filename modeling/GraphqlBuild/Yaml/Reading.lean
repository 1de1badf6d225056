import GraphqlBuild.Text.Basic
/-!
# Reading a YAML stream

The stream as characters with line and column. Carriage returns and next-line characters are turned into
line feeds beforehand, so a line ends at a line feed or at one of the two Unicode separators, which stay
what they are.

`parse_yaml` reads its text so.
-/

namespace GraphqlBuild.Yaml

/-- The character may stand in a stream. -/
def isPrintable (c : Char) : Bool :=
  let n := c.toNat
  n == 0x09 || n == 0x0a || n == 0x0d || (0x20 ≤ n && n ≤ 0x7e) || n == 0x85 ||
    (0xa0 ≤ n && n ≤ 0xfffd) || 0x10000 ≤ n

/-- The text with each carriage return, with or without a line feed, and each next-line character
replaced by a line feed. -/
def unifyBreaks : Text → Text
  | [] => []
  | '\r' :: '\n' :: t => '\n' :: unifyBreaks t
  | c :: t => (if c = '\r' ∨ c = '\u0085' then '\n' else c) :: unifyBreaks t

/-- The character ends a line. -/
def isBreak (c : Char) : Bool := c == '\n' || c == '\u2028' || c == '\u2029'

/-- The character parts two tokens on a line. -/
def isBlank (c : Char) : Bool := c == ' ' || c == '\t'

/-- The character can stand in an anchor or a directive's name. -/
def isWordChar (c : Char) : Bool := c.isAlphanum || c == '_' || c == '-'

/-- What is left of the stream, and where it begins. -/
structure Reading where
  rest : Text
  line : Nat := 0
  column : Nat := 0
  index : Nat := 0
deriving DecidableEq, Repr

namespace Reading

/-- After the next character. -/
def skip (r : Reading) : Reading :=
  match r.rest with
  | [] => r
  | c :: t =>
    if isBreak c then ⟨t, r.line + 1, 0, r.index + 1⟩
    else ⟨t, r.line, r.column + 1, r.index + 1⟩

/-- After the next `n` characters. -/
def skipMany : Nat → Reading → Reading
  | 0, r => r
  | n + 1, r => skipMany n r.skip

/-- The character `n` places ahead. -/
def ahead? (r : Reading) (n : Nat) : Option Char := r.rest[n]?

/-- The next character is this one. -/
def isAt (r : Reading) (c : Char) : Bool := r.rest.head? == some c

/-- `n` places ahead there is a blank, a line break or the end. -/
def isGap (r : Reading) (n : Nat) : Bool := (r.ahead? n).all fun c => isBlank c || isBreak c

/-- The next character is a line break, or there is none. -/
def isLineEnd (r : Reading) : Bool := (r.ahead? 0).all isBreak

/-- After the characters of this line for which the test holds. -/
def skipWhile (p : Char → Bool) (r : Reading) : Reading :=
  skipMany (r.rest.takeWhile fun c => p c && !isBreak c).length r

/-- After a comment, if one begins here. -/
def skipComment (r : Reading) : Reading := if r.isAt '#' then r.skipWhile fun _ => true else r

/-- Three characters at the start of a line mark where a document starts or ends. -/
def isMarker (r : Reading) (c : Char) : Bool :=
  r.column == 0 && r.rest.take 3 == [c, c, c] && r.isGap 3

/-- A document starts or ends here. -/
def isDocumentMarker (r : Reading) : Bool := r.isMarker '-' || r.isMarker '.'

/-- After the blanks, an optional comment and the line break that must follow. -/
def endLine? (r : Reading) : Option Reading :=
  let r := (r.skipWhile isBlank).skipComment
  if r.isLineEnd then some r.skip else none

end Reading

end GraphqlBuild.Yaml
