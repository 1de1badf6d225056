import GraphqlBuild.Document.Pending
import GraphqlBuild.Graphql.Printer
import GraphqlBuild.Graphql.Validate
/-!
# Parsed documents

A text without syntax errors has a syntax tree; its outline names each definition's kind, operation type and
name. Two parsed documents count as equal when their outlines are.

| here | in the program |
| --- | --- |
| `DefinitionNode.ofDefinition` | `DefinitionNode::from` |
| `ParsedDocument.parse`, `node`, `print` | `ParsedDocument::parse`, `node`, `print` |
| `PendingDocument.parse` | `PendingDocument::parse` |
-/

namespace GraphqlBuild

open Graphql

/-- The query type of an operation. -/
def QueryType.ofOperation : OperationType → QueryType
  | .query => query
  | .mutation => mutation
  | .subscription => subscription

/-- The outline of a definition; a schema has no name. -/
def DefinitionNode.ofDefinition : Definition → DefinitionNode
  | .operation o => { kind := .operation, operation := some (.ofOperation o.type), name := o.name }
  | .fragment f => { kind := .fragment, name := some f.name }
  | .directive d => { kind := .typeSystem, name := some d.name }
  | .schema _ => { kind := .typeSystem }
  | .type t => { kind := .typeSystem, name := some t.name }
  | .extendSchema _ => { kind := .typeExtension }
  | .extendType t => { kind := .typeExtension, name := some t.name }

/-- A text without syntax errors and its syntax tree. -/
structure ParsedDocument where
  source : Text
  ast : Graphql.Document

namespace ParsedDocument

/-- The parsed text, or its first syntax error. -/
def parse (t : Text) : Except SyntaxError ParsedDocument := do
  validate t
  return ⟨t, (Document.ofText t).1⟩

/-- The outline. -/
def node (d : ParsedDocument) : DocumentNode := ⟨d.ast.map DefinitionNode.ofDefinition⟩

/-- The printed form of the syntax tree. -/
def print (d : ParsedDocument) : Text := d.ast.print

end ParsedDocument

/-- The parsed text of a pending document, or its first syntax error. -/
def PendingDocument.parse (d : PendingDocument) : Except SyntaxError ParsedDocument :=
  ParsedDocument.parse d.render

end GraphqlBuild
