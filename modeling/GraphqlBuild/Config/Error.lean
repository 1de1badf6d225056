import GraphqlBuild.Config.Preset
import GraphqlBuild.FileTree.Failure
import GraphqlBuild.Json.Fault
import GraphqlBuild.Path
/-!
# Configuration errors

| here | in the program |
| --- | --- |
| `ConfigError`, its `message` | `ConfigError` and how it is displayed |
| `Preset.named` | `TransformPreset::from_str` |
-/

namespace GraphqlBuild

/-- Why the text of a configuration cannot be decoded. -/
inductive DecodeFault
  /-- It is no YAML document of the wanted shape; the details are not kept. -/
  | yaml
  /-- It is no JSON text of the wanted shape; the wording of the fault. -/
  | json (message : Text)
deriving DecidableEq, Repr

/-- The wording of the fault. -/
def DecodeFault.message : DecodeFault → Text
  | yaml => "YAML parse error"
  | json message => "JSON parse error: " ++ message

/-- Why there is no valid configuration. -/
inductive ConfigError
  | io (failure : ReadFailure)
  | invalid (path : Path) (fault : DecodeFault)
  | unsupportedFormat (path : Path)
  | unknownTransform (name : Text) (suggestion : Option Preset)
  | invalidTag (tag : Text)
  | noTags
  | invalidExtension (extension : Text)
  | noExtensions
deriving DecidableEq, Repr

namespace ConfigError

/-- The wording of the error. -/
def message : ConfigError → Text
  | io failure => "Failed to read config file: " ++ failure.message
  | invalid path fault => "Invalid config at " ++ path ++ ": " ++ fault.message
  | unsupportedFormat path => "Unsupported config file format: " ++ path
  | unknownTransform name suggestion =>
    "Unknown transform '" ++ name ++ "'" ++ match suggestion with
      | none => []
      | some p => " (did you mean '" ++ p.name ++ "'?)"
  | invalidTag tag => "Invalid tag identifier '" ++ tag ++ "': expected a JavaScript identifier"
  | noTags => "At least one tag identifier is required"
  | invalidExtension extension => "Invalid GraphQL file extension '" ++ extension ++ "'"
  | noExtensions => "At least one GraphQL file extension is required"

end ConfigError

/-- The preset of that name, or the error that suggests another. -/
def Preset.named (name : Text) : Except ConfigError Preset :=
  match ofName? name with
  | some p => .ok p
  | none => .error (.unknownTransform name (suggestion? name))

end GraphqlBuild
