import GraphqlBuild.Config.Options
/-!
# Configuration records

A configuration names the settings that differ from the defaults; what it leaves out keeps its default.
`TagConfig.toJson` is its written form, members in a fixed order and absent fields left out.

| here | in the program |
| --- | --- |
| `TagConfig`, its `toJson` | `TagConfig`, and what is derived for it |
| `TagConfig.settings`, `TagConfig.toOptions` | `TagConfig::into_options` |
-/

namespace GraphqlBuild

/-- What a configuration file can set. -/
structure TagConfig where
  stripComments : Option Bool := none
  includeLocation : Option Bool := none
  validate : Option Bool := none
  transform : Option Text := none
  tags : Option (List Text) := none
  extensions : Option (List Text) := none
deriving DecidableEq, Repr, Inhabited

namespace TagConfig

/-- The fields, in the order of the record. -/
inductive Field
  | stripComments
  | includeLocation
  | validate
  | transform
  | tags
  | extensions
deriving DecidableEq, Repr

namespace Field

/-- All fields in order. -/
def all : List Field := [stripComments, includeLocation, validate, transform, tags, extensions]

/-- The key of the field. -/
def name : Field → Text
  | stripComments => "stripComments"
  | includeLocation => "includeLocation"
  | validate => "validate"
  | transform => "transform"
  | tags => "tags"
  | extensions => "extensions"

/-- The field of that key. -/
def ofName? (t : Text) : Option Field := all.find? fun f => f.name = t

end Field

/-- The JSON object with a member for each field that is set. -/
def toJson (c : TagConfig) : JsonValue :=
  let member (f : Field) : Option JsonValue → List (Text × JsonValue)
    | none => []
    | some v => [(f.name, v)]
  let texts (ts : List Text) : JsonValue := .array (ts.map .string)
  .object <|
    member .stripComments (c.stripComments.map .bool) ++
    member .includeLocation (c.includeLocation.map .bool) ++
    member .validate (c.validate.map .bool) ++
    member .transform (c.transform.map .string) ++
    member .tags (c.tags.map texts) ++
    member .extensions (c.extensions.map texts)

/-- One setting, if there is a value for it. -/
def settingOf {α : Type} (make : α → Setting) : Option α → List Setting
  | none => []
  | some a => [make a]

/-- The settings that the record asks for; a transform must be a preset's name. -/
def settings (c : TagConfig) : Except ConfigError (List Setting) := do
  let preset ← match c.transform with
    | none => pure none
    | some name => (Preset.named name).map some
  return settingOf .stripComments c.stripComments ++
    settingOf .includeLocation c.includeLocation ++
    settingOf .validate c.validate ++
    settingOf (fun p => .transform (Preset.apply p)) preset ++
    settingOf .tags c.tags ++
    settingOf .extensions c.extensions

/-- The options that the record asks for. -/
def toOptions (c : TagConfig) : Except ConfigError Options := do
  Options.ofSettings (← c.settings)

end TagConfig

end GraphqlBuild
