import GraphqlBuild.Document.QueryType
import GraphqlBuild.Json.Value
/-!
# Document nodes

The outline of a document that build tools see: for each definition its kind, the operation's type and the
name.

| here | in the program |
| --- | --- |
| `DefinitionKind`, `DefinitionNode`, `DocumentNode` | the same names |
| `DocumentNode.placeholder` | `DocumentNode::placeholder` |
| `toJson`, `toSortedJson` | what is derived for them; `to_value` sorts the members |
-/

namespace GraphqlBuild

/-- What a definition defines. -/
inductive DefinitionKind
  | operation
  | fragment
  | typeSystem
  | typeExtension
deriving DecidableEq, Repr

/-- The name of the kind in the JSON form. -/
def DefinitionKind.name : DefinitionKind → Text
  | operation => "OperationDefinition"
  | fragment => "FragmentDefinition"
  | typeSystem => "TypeSystemDefinition"
  | typeExtension => "TypeSystemExtension"

/-- The outline of one definition. -/
structure DefinitionNode where
  kind : DefinitionKind
  /-- The type of an operation. -/
  operation : Option QueryType := none
  name : Option Text := none
deriving DecidableEq, Repr

/-- The outline of a document. -/
structure DocumentNode where
  definitions : List DefinitionNode
deriving DecidableEq, Repr

namespace DefinitionNode

/-- A member, if there is a value for it. -/
def member (name : Text) : Option Text → List (Text × JsonValue)
  | none => []
  | some t => [(name, .string t)]

/-- The JSON form, absent members left out. -/
def toJson (d : DefinitionNode) : JsonValue :=
  .object (("kind".toList, .string d.kind.name) ::
    (member "operation" (d.operation.map QueryType.name) ++ member "name" d.name))

/-- The JSON form with its members by ascending key. -/
def toSortedJson (d : DefinitionNode) : JsonValue :=
  .object (("kind".toList, .string d.kind.name) ::
    (member "name" d.name ++ member "operation" (d.operation.map QueryType.name)))

end DefinitionNode

namespace DocumentNode

/-- The outline of a document that nobody has parsed. -/
def placeholder : DocumentNode := ⟨[]⟩

/-- The JSON form. -/
def toJson (d : DocumentNode) : JsonValue :=
  .object [("kind", .string "Document"), ("definitions", .array (d.definitions.map DefinitionNode.toJson))]

/-- The JSON form with all members by ascending key. -/
def toSortedJson (d : DocumentNode) : JsonValue :=
  .object [("definitions", .array (d.definitions.map DefinitionNode.toSortedJson)),
    ("kind", .string "Document")]

end DocumentNode

end GraphqlBuild
