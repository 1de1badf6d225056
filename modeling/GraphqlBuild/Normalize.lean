import GraphqlBuild.Text.Blank
/-!
# Normalization of a document's text

Comments are cut, a transform chosen by the user is applied, and the blanks at the two ends go.

| here | in the program |
| --- | --- |
| `stripComments` | `strip_comments`; `stripCommentsFrom` is its loop |
| `unixLines` | `normalize_line_endings` |
| `Normalization`, `Normalization.verbatim` | `NormalizationConfig`, `NormalizationConfig::verbatim` |
| `Normalization.apply` | `normalize` |
-/

namespace GraphqlBuild

/-- Drops every comment: from a `#` that no backslash precedes up to the next line terminator, which
stays. `previous` is the character before the text, inside a comment or not. -/
def stripCommentsFrom (inComment : Bool) (previous : Option Char) : Text → Text
  | [] => []
  | c :: t =>
    if inComment then
      if c = '\n' ∨ c = '\r' then c :: stripCommentsFrom false (some c) t
      else stripCommentsFrom true (some c) t
    else if c = '#' ∧ previous ≠ some '\\' then stripCommentsFrom true (some c) t
    else c :: stripCommentsFrom false (some c) t

/-- The text without its comments. -/
def stripComments (t : Text) : Text := stripCommentsFrom false none t

/-- Every carriage return that a line feed follows is dropped. -/
def unixLines : Text → Text
  | [] => []
  | '\r' :: '\n' :: t => '\n' :: unixLines t
  | c :: t => c :: unixLines t

/-- How the text of a document is normalized. -/
structure Normalization where
  stripComments : Bool := true
  /-- Applied once the comments are gone. -/
  transform : Option (Text → Text) := none

namespace Normalization

/-- Nothing but the blanks at the ends is changed. -/
def verbatim : Normalization := { stripComments := false }

/-- The text without comments if they are to go, then transformed. -/
def applied (n : Normalization) (t : Text) : Text :=
  let kept := if n.stripComments then GraphqlBuild.stripComments t else t
  match n.transform with
  | none => kept
  | some f => f kept

/-- The normalized text. -/
def apply (n : Normalization) (t : Text) : Text := (n.applied t).trim

end Normalization

end GraphqlBuild
