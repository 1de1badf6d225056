import GraphqlBuild.Text.Basic
/-!
# Lines and columns

A line ends after its line feed; a carriage return is an ordinary character of its line. A
`LineIndex` holds where the lines of one text start, and turns a byte offset into a line and a column,
both counted from zero. A `Position` holds the two in 32-bit words, so it wraps at `2^32`.

| here | in the program |
| --- | --- |
| `Span`, `Span.slice?` | `OffsetRange`, `OffsetRange::slice` |
| `Position`, `PositionRange` | `Position`, `Range` |
| `LineIndex.ofText`, `lineCount` | `LineIndex::new`, `LineIndex::line_count` |
| `lineCol`, `position`, `range` | `LineIndex::line_col`, `LineIndex::position`, `LineIndex::range` |
-/

namespace GraphqlBuild

/-- Bytes `start` to `stop` of some text; nothing is said about their order. -/
structure Span where
  start : Nat
  stop : Nat
deriving DecidableEq, Repr, Inhabited

namespace Span

/-- The number of bytes, 0 when `stop` lies before `start`. -/
def length (s : Span) : Nat := s.stop - s.start

/-- The bytes of the text that the span covers, if they are whole characters of it. -/
def slice? (s : Span) (t : Text) : Option Text := t.slice? s.start s.stop

end Span

/-- A line and a byte column, both from zero, in 32-bit words. -/
structure Position where
  line : UInt32
  column : UInt32
deriving DecidableEq, Repr, Inhabited

/-- Earlier line, or the same line and no later column. -/
def Position.le (a b : Position) : Bool :=
  a.line < b.line || (a.line == b.line && a.column ≤ b.column)

/-- The positions of a span's two ends. -/
structure PositionRange where
  start : Position
  stop : Position
deriving DecidableEq, Repr, Inhabited

/-- The offsets at which the lines of one text start, in ascending order; the first is 0. -/
structure LineIndex where
  starts : List Nat
deriving DecidableEq, Repr

namespace LineIndex

/-- The offsets just after the line feeds of a text that begins at `offset`. -/
def startsAfter (offset : Nat) : Text → List Nat
  | [] => []
  | c :: t =>
    let next := offset + c.utf8Size
    if c = '\n' then next :: startsAfter next t else startsAfter next t

/-- The index of a text. -/
def ofText (t : Text) : LineIndex := ⟨0 :: startsAfter 0 t⟩

/-- The number of lines, one more than the line feeds. -/
def lineCount (index : LineIndex) : Nat := index.starts.length

/-- The line of a byte offset and the distance from that line's start. Offsets past the end of the
text count on from the start of the last line. -/
def lineCol (index : LineIndex) (offset : Nat) : Nat × Nat :=
  let passed := index.starts.takeWhile (· ≤ offset)
  (passed.length - 1, offset - passed.getLastD 0)

/-- `lineCol` in 32-bit words. -/
def position (index : LineIndex) (offset : Nat) : Position :=
  let (line, column) := index.lineCol offset
  ⟨UInt32.ofNat line, UInt32.ofNat column⟩

/-- The positions of the span's ends. -/
def range (index : LineIndex) (span : Span) : PositionRange :=
  ⟨index.position span.start, index.position span.stop⟩

end LineIndex

end GraphqlBuild
