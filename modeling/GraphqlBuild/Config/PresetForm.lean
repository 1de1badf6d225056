import GraphqlBuild.Config.Preset
import GraphqlBuild.Json.Fault
/-!
# Presets as JSON values

A preset is written as its name, or as an object whose only member has that name and the value `null`.

`Preset.ofJson` and `Preset.toJson` are what is derived for `TransformPreset`.
-/

namespace GraphqlBuild.Preset

open Json

/-- Why a JSON value is no preset. -/
inductive FormError
  | unknownVariant (name : Text)
  | wrongType (found : Unexpected) (wanted : Text)
  | notOneMember
deriving DecidableEq, Repr

/-- The wording of the error. -/
def FormError.message : FormError → Text
  | unknownVariant name =>
    "unknown variant `" ++ name ++ "`, expected one of " ++ quoteAll (all.map Preset.name)
  | wrongType found wanted => "invalid type: " ++ found.text ++ ", expected " ++ wanted
  | notOneMember => "invalid value: map, expected map with a single key"

/-- The preset of that name. -/
def ofVariant (name : Text) : Except FormError Preset :=
  match ofName? name with
  | some p => .ok p
  | none => .error (.unknownVariant name)

/-- How an error names a value. -/
def describe : JsonValue → Unexpected
  | .null => .null
  | .bool b => .bool b
  | .integer n => .integer n
  | .decimal digits => .decimal digits
  | .string t => .string t
  | .array _ => .sequence
  | .object _ => .map

/-- The preset that a JSON value stands for. -/
def ofJson : JsonValue → Except FormError Preset
  | .string name => ofVariant name
  | .object [(name, content)] => do
    let preset ← ofVariant name
    match content with
    | .null => return preset
    | other => throw (.wrongType (describe other) "unit")
  | .object _ => .error .notOneMember
  | other => .error (.wrongType (describe other) "string or map")

/-- The JSON value that stands for the preset. -/
def toJson (p : Preset) : JsonValue := .string p.name

end GraphqlBuild.Preset
