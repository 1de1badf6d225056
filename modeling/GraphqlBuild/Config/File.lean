import GraphqlBuild.Config.JsonForm
import GraphqlBuild.Config.YamlForm
import GraphqlBuild.FileTree.Basic
/-!
# Configuration files

The name of a file decides how it is written. A configuration counts only once its options are checked, so a
loaded one always gives options (`TagConfig.ofFile`). `Workspace.configPath?` looks for the nearest one.

| here | in the program |
| --- | --- |
| `configNames`, `shortConfigName` | `CONFIG_FILES`, `RC_FILE` |
| `ConfigFormat.ofPath?`, `ConfigFormat.decode` | `ConfigFormat::detect`, `ConfigFormat::parse` |
| `TagConfig.ofFile` | `load_config_from_str` |
| `Workspace.loadConfig` | `load_config` |
| `Workspace.configPath?` | `find_config` |
-/

namespace GraphqlBuild

/-- How a configuration file is written. -/
inductive ConfigFormat
  | yaml
  | json
  /-- YAML, or else JSON. -/
  | either
deriving DecidableEq, Repr

/-- The name of a configuration file without extension. -/
def shortConfigName : Text := ".gqltagrc"

/-- The names of configuration files, the preferred one first. -/
def configNames : List Text :=
  ["graphql-tag.config.yml", "graphql-tag.config.yaml", "graphql-tag.config.json", shortConfigName]

namespace ConfigFormat

/-- The format that the name of a file announces. -/
def ofPath? (p : Path) : Option ConfigFormat :=
  match p.extension? with
  | some e =>
    if (["yml", "yaml"] : List Text).contains e then some yaml
    else if e = ['j', 's', 'o', 'n'] then some json
    else none
  | none => if p.fileName? = some shortConfigName then some either else none

/-- The record that a text in this format holds. -/
def decode (format : ConfigFormat) (source : Text) : Except DecodeFault TagConfig :=
  let asYaml := (TagConfig.ofYaml? source).elim (.error .yaml) .ok
  let asJson := (TagConfig.ofJson source).mapError .json
  match format with
  | yaml => asYaml
  | json => asJson
  | either => asYaml.orElseLazy fun _ => asJson

end ConfigFormat

/-- The record in the text of the file at a path, with the options it asks for. -/
def TagConfig.ofFile (p : Path) (source : Text) : Except ConfigError (TagConfig × Options) := do
  match ConfigFormat.ofPath? p with
  | none => throw (.unsupportedFormat p)
  | some format =>
    let config ← (format.decode source).mapError (.invalid p)
    return (config, ← config.toOptions)

namespace Workspace

/-- The configuration in the file at a path. -/
def loadConfig (w : Workspace) (p : Path) : Except ConfigError (TagConfig × Options) := do
  let source ← (w.read p).mapError .io
  TagConfig.ofFile p source

/-- The nearest configuration file in the directory at a path or one above it, going by how the path is
spelled. -/
def configPath? (w : Workspace) (start : Path) : Option Path :=
  ((Path.ancestors start).flatMap fun dir => configNames.map (Path.join dir)).find? w.hasFile

end Workspace

end GraphqlBuild
