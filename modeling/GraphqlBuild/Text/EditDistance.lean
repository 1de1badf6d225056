import GraphqlBuild.Text.Basic
/-!
# Edit distance

The least number of insertions, deletions and substitutions of one character that turn one text into
another. A row holds the distances from one text to every suffix of the other, longest suffix first; a
character put in front of the text turns its row into the next one.

`distance` is `levenshtein`, which `TransformPreset::from_str` asks how near a preset is.
-/

namespace GraphqlBuild.Text

/-- The distances from `c :: s` to the suffixes of a text, from those of `s`. -/
def distanceRow (c : Char) : Text → List Nat → List Nat
  | [], row => [row.headD 0 + 1]
  | d :: t, row =>
    let below := row.drop 1
    let next := distanceRow c t below
    let least := min (min (row.headD 0 + 1) (next.headD 0 + 1))
      (below.headD 0 + if c = d then 0 else 1)
    least :: next

/-- The distances from `s` to the suffixes of `t`. -/
def distances : Text → Text → List Nat
  | [], t => (List.range (t.length + 1)).reverse
  | c :: s, t => distanceRow c t (distances s t)

/-- The edit distance between two texts. -/
def distance (s t : Text) : Nat := (distances s t).headD 0

end GraphqlBuild.Text
