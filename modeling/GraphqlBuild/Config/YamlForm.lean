import GraphqlBuild.Config.TagConfig
import GraphqlBuild.Yaml.Node
/-!
# Configurations in YAML

A configuration is a mapping whose keys are fields, each at most once. Where nothing is written, nothing is
set: a text without a document, an empty document and an empty value all leave the defaults.

`TagConfig.ofYaml?` is `parse_yaml`, with what is derived for `TagConfig` to read its fields.
-/

namespace GraphqlBuild.TagConfig

open Yaml

/-- The words for no value. -/
def nullWords : List Text := ["null", "Null", "NULL", "~"]

/-- The tag of the absent value. -/
def nullTag : Text := "tag:yaml.org,2002:null"

/-- The tag of a truth value. -/
def boolTag : Text := "tag:yaml.org,2002:bool"

/-- The truth value that a word stands for. -/
def boolWord? (t : Text) : Option Bool :=
  if (["true", "True", "TRUE"] : List Text).contains t then some true
  else if (["false", "False", "FALSE"] : List Text).contains t then some false
  else none

/-- The truth value of a plain scalar, or of a literal block with the tag for it. -/
def boolOfNode? : Node → Option Bool
  | .scalar t .plain _ => boolWord? t
  | .scalar t .literal (some tag) => if tag = boolTag then boolWord? t else none
  | _ => none

/-- The text of a scalar, however it is written. -/
def textOfNode? : Node → Option Text
  | .scalar t _ _ => some t
  | _ => none

/-- The texts of a sequence of scalars; an empty scalar is an empty sequence. -/
def textsOfNode? : Node → Option (List Text)
  | .sequence items => items.mapM textOfNode?
  | .scalar [] .plain _ => some []
  | _ => none

/-- The node says that there is no value; `none` if its tag says so but its text does not. -/
def isNull? : Node → Option Bool
  | .scalar t .plain none => some (t.isEmpty || nullWords.contains t)
  | .scalar t .plain (some tag) =>
    if tag = nullTag then (if nullWords.contains t then some true else none) else some false
  | _ => some false

/-- The value of a field, if there is one. -/
def optionalOfNode? {α : Type} (value? : Node → Option α) (node : Node) : Option (Option α) := do
  if ← isNull? node then return none else (value? node).map some

/-- The record with the field set as the node says. -/
def setFromNode (config : TagConfig) (field : Field) (node : Node) : Option TagConfig :=
  match field with
  | .stripComments =>
    (optionalOfNode? boolOfNode? node).map fun v => { config with stripComments := v }
  | .includeLocation =>
    (optionalOfNode? boolOfNode? node).map fun v => { config with includeLocation := v }
  | .validate => (optionalOfNode? boolOfNode? node).map fun v => { config with validate := v }
  | .transform => (optionalOfNode? textOfNode? node).map fun v => { config with transform := v }
  | .tags => (optionalOfNode? textsOfNode? node).map fun v => { config with tags := v }
  | .extensions => (optionalOfNode? textsOfNode? node).map fun v => { config with extensions := v }

/-- The record with the members of a mapping, none of which is in `seen`. -/
def setMembers : List (Node × Node) → List Field → TagConfig → Option TagConfig
  | [], _, config => some config
  | (key, value) :: members, seen, config => do
    let field ← Field.ofName? (← textOfNode? key)
    if field ∈ seen then none
    else setMembers members (field :: seen) (← config.setFromNode field value)

/-- The record that a document stands for. -/
def ofNode? : Node → Option TagConfig
  | .mapping members => setMembers members [] {}
  | .scalar [] .plain _ => some {}
  | _ => none

/-- The record that a YAML text holds. -/
def ofYaml? (source : Text) : Option TagConfig :=
  if source.trim.isEmpty then some {}
  else do
    match ← document? source with
    | none => return {}
    | some node => ofNode? node

end GraphqlBuild.TagConfig
