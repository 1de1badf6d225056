import GraphqlBuild.Text.Lines
/-!
# Edits

An edit puts a new text in the place of a span. `applyEdits` works from the back of the text to its
front, so the offsets of the edits still to come stay valid; an edit whose span does not fall on whole
characters of the text at hand is skipped.

| here | in the program |
| --- | --- |
| `Edit`, `Edit.isNoop` | `TextEdit`, `TextEdit::is_noop` |
| `latestFirst` | the sort in `apply_edits`, which is stable |
| `Edit.replaceIn?` | one round of the loop in `apply_edits` |
| `applyEdits` | `apply_edits` |
-/

namespace GraphqlBuild

/-- A span and the text that takes its place. -/
structure Edit where
  span : Span
  newText : Text
deriving DecidableEq, Repr

namespace Edit

/-- The span already holds the new text. -/
def isNoop (e : Edit) (t : Text) : Bool := e.span.slice? t == some e.newText

/-- The text with the span replaced, if the span falls on whole characters of it. -/
def replaceIn? (e : Edit) (t : Text) : Option Text :=
  if e.span.start ≤ e.span.stop then do
    let (before, rest) ← t.splitAt? e.span.start
    let (_, after) ← Text.splitAt? (e.span.stop - e.span.start) rest
    return before ++ e.newText ++ after
  else none

/-- The text with the span replaced, or unchanged. -/
def replaceIn (e : Edit) (t : Text) : Text := (e.replaceIn? t).getD t

/-- Puts `e` before the first edit that starts no later than it. -/
def insertLatest (e : Edit) : List Edit → List Edit
  | [] => [e]
  | d :: rest => if d.span.start ≤ e.span.start then e :: d :: rest else d :: insertLatest e rest

/-- The edits by descending start; those of one start keep their order. -/
def latestFirst (edits : List Edit) : List Edit := edits.foldr insertLatest []

end Edit

/-- All edits applied, from the latest start to the earliest. -/
def applyEdits (t : Text) (edits : List Edit) : Text :=
  (Edit.latestFirst edits).foldl (fun text e => e.replaceIn text) t

end GraphqlBuild
