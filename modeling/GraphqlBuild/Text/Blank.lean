import GraphqlBuild.Text.Basic
/-!
# Blanks, words and trimming

A blank is a character with the Unicode property White_Space. `Text.trim` drops blanks at both ends,
`Text.words` are the pieces between blanks, and `Text.collapse` writes the words with one space between
each two.

| here | in the program |
| --- | --- |
| `trim` | the trimming in `normalize`, `whole_file` and `materialize` |
| `collapse` | `collapse_whitespace` |
-/

namespace GraphqlBuild

/-- Code points from the first to the second, both included. -/
abbrev CodeRange := Nat × Nat

/-- The character's code point lies in one of the ranges. -/
def CodeRange.cover (ranges : List CodeRange) (c : Char) : Bool :=
  ranges.any fun r => r.1 ≤ c.toNat && c.toNat ≤ r.2

/-- The code points with the property White_Space. -/
def blankRanges : List CodeRange :=
  [(0x09, 0x0d), (0x20, 0x20), (0x85, 0x85), (0xa0, 0xa0), (0x1680, 0x1680), (0x2000, 0x200a),
    (0x2028, 0x2029), (0x202f, 0x202f), (0x205f, 0x205f), (0x3000, 0x3000)]

/-- The character has the property White_Space. -/
def isBlank (c : Char) : Bool := CodeRange.cover blankRanges c

namespace Text

/-- The text without the blanks it begins with. -/
def trimStart (t : Text) : Text := t.dropWhile isBlank

/-- The text without the blanks it ends with. -/
def trimEnd (t : Text) : Text := (t.reverse.dropWhile isBlank).reverse

/-- The text without the blanks at its two ends. -/
def trim (t : Text) : Text := trimEnd (trimStart t)

/-- The longest pieces of the text that hold no blank. -/
def words (t : Text) : List Text := (splitOn isBlank t).filter fun piece => !piece.isEmpty

/-- The words with one space between each two. -/
def collapse (t : Text) : Text := join [' '] (words t)

end Text

end GraphqlBuild
