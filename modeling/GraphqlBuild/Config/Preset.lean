import GraphqlBuild.Text.CaseMap
import GraphqlBuild.Text.EditDistance
/-!
# Preset transforms

The transforms that a configuration can name. A name that is none of them is answered with the nearest
one, if that is at most three edits away; of equally near ones the first in the list is taken.

| here | in the program |
| --- | --- |
| `Preset`, `Preset.all` | `TransformPreset`, `TransformPreset::ALL` |
| `Preset.name`, `Preset.apply` | `TransformPreset::name`, `TransformPreset::apply` |
| `Preset.ofName?`, `Preset.suggestion?` | the two searches in `TransformPreset::from_str` |
-/

namespace GraphqlBuild

/-- A transform that a configuration can name. -/
inductive Preset
  | identity
  | uppercase
  | lowercase
  | collapseWhitespace
deriving DecidableEq, Repr

namespace Preset

/-- The presets in the order in which they are tried. -/
def all : List Preset := [identity, uppercase, lowercase, collapseWhitespace]

/-- The name that a configuration uses. -/
def name : Preset → Text
  | identity => "identity"
  | uppercase => "uppercase"
  | lowercase => "lowercase"
  | collapseWhitespace => "collapseWhitespace"

/-- The transform itself. -/
def apply : Preset → Text → Text
  | identity, t => t
  | uppercase, t => t.upper
  | lowercase, t => t.lower
  | collapseWhitespace, t => t.collapse

/-- The preset of that name. -/
def ofName? (t : Text) : Option Preset := all.find? fun p => p.name = t

/-- The greatest distance at which a preset is suggested. -/
def reach : Nat := 3

/-- The first of the presets in the list that no other is nearer to the text than. -/
def nearestOf (t : Text) : List Preset → Option Preset
  | [] => none
  | p :: ps =>
    match nearestOf t ps with
    | none => some p
    | some q => if t.distance p.name ≤ t.distance q.name then some p else some q

/-- The preset to suggest to someone who wrote the text. -/
def suggestion? (t : Text) : Option Preset :=
  nearestOf t (all.filter fun p => t.distance p.name ≤ reach)

end Preset

end GraphqlBuild
