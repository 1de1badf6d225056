import GraphqlBuild.Config.Error
import GraphqlBuild.Literal
import GraphqlBuild.Normalize
/-!
# Options

Settings are made one by one on a draft; a later setting of the same field replaces an earlier one. Only
`Draft.build` turns a draft into `Options`, which therefore always have at least one tag and one
extension, every tag an identifier and every extension a run of ASCII letters and digits.

| here | in the program |
| --- | --- |
| `defaultTag`, `isIdentifier` | `DEFAULT_TAG`, `is_js_identifier` |
| `Draft`, `Setting`, `Draft.set` | `PluginOptionsBuilder` and its setters |
| `Draft.fault?`, `Draft.build` | `PluginOptionsBuilder::build` |
| `Options` | `PluginOptions` |
-/

namespace GraphqlBuild

/-- The tag that marks GraphQL unless a configuration says otherwise. -/
def defaultTag : Text := "gql"

/-- The text is an identifier of ASCII letters, digits, `_` and `$`. -/
def isIdentifier : Text → Bool
  | [] => false
  | c :: t => (c.isAlpha || c == '_' || c == '$') && t.all continuesIdentifier

/-- The text is a run of ASCII letters and digits. -/
def isExtensionName (t : Text) : Bool := !t.isEmpty && t.all Char.isAlphanum

/-- Options whose tags and extensions are not yet checked. -/
structure Draft where
  normalization : Normalization := {}
  includeLocation : Bool := false
  validate : Bool := true
  tags : List Text := [defaultTag]
  extensions : List Text := defaultExtensions

/-- One setting of a draft. -/
inductive Setting
  | stripComments (value : Bool)
  | transform (f : Text → Text)
  /-- Replaces both what `stripComments` and what `transform` set. -/
  | normalization (n : Normalization)
  | includeLocation (value : Bool)
  | validate (value : Bool)
  | tags (names : List Text)
  /-- Dots in front of an extension are dropped. -/
  | extensions (names : List Text)

namespace Draft

/-- The draft with one setting made. -/
def set (d : Draft) : Setting → Draft
  | .stripComments b => { d with normalization := { d.normalization with stripComments := b } }
  | .transform f => { d with normalization := { d.normalization with transform := some f } }
  | .normalization n => { d with normalization := n }
  | .includeLocation b => { d with includeLocation := b }
  | .validate b => { d with validate := b }
  | .tags names => { d with tags := names }
  | .extensions names => { d with extensions := names.map fun t => t.dropWhile (· == '.') }

/-- The first thing wrong with the tags, or else with the extensions. -/
def fault? (d : Draft) : Option ConfigError :=
  if d.tags = [] then some .noTags
  else match d.tags.find? fun t => !isIdentifier t with
    | some t => some (.invalidTag t)
    | none =>
      if d.extensions = [] then some .noExtensions
      else (d.extensions.find? fun t => !isExtensionName t).map .invalidExtension

end Draft

/-- Options with valid tags and extensions. -/
structure Options extends Draft where
  fault?_eq_none : toDraft.fault? = none

namespace Draft

/-- The options, if nothing is wrong with the draft. -/
def build (d : Draft) : Except ConfigError Options :=
  match h : d.fault? with
  | none => .ok ⟨d, h⟩
  | some e => .error e

end Draft

/-- The options that hold when nothing is set. -/
def Options.default : Options := ⟨{}, by decide⟩

/-- The options after the settings, made in order on the default draft. -/
def Options.ofSettings (settings : List Setting) : Except ConfigError Options :=
  (settings.foldl Draft.set {}).build

end GraphqlBuild
