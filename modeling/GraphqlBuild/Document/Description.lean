import GraphqlBuild.Document.Parsed
import GraphqlBuild.Pipeline
/-!
# Descriptions of documents

What a source contributes, as JSON: for each document its outline, its text and its query type. The outline
is filled in only if the document is parsed.

| here | in the program |
| --- | --- |
| `PendingDocument.describe` | `describe` |
| `Pipeline.documentTexts` | `document_texts` |
| `Pipeline.describe` | `print::run`, up to what it prints |
-/

namespace GraphqlBuild

/-- The JSON form of an outline and of what the document keeps beside it. -/
def PendingDocument.descriptionOf (d : PendingDocument) (node : DocumentNode) : JsonValue :=
  .object [("document", node.toSortedJson),
    ("metadata", .object [("queryType", .string d.queryType.name), ("rawText", .string d.rawText)])]

/-- The description of a document; with `parsed`, its first syntax error if it has one. -/
def PendingDocument.describe (d : PendingDocument) (parsed : Bool) :
    Except Graphql.SyntaxError JsonValue :=
  if parsed then d.parse.map fun p => d.descriptionOf p.node else .ok (d.descriptionOf d.node)

namespace Pipeline

/-- The normalized texts of the documents of a source. -/
def documentTexts (p : Pipeline) (code : Text) : SourceMode → List Text
  | .wholeFile => [p.normalizeFile code]
  | .embeddedLiteral => (p.extractLiterals code).map fun e => p.normalizeLiteral e.source

/-- The description of a source: of its document, or of the list of its documents. -/
def describe (p : Pipeline) (code : Text) (mode : SourceMode) (parsed : Bool) :
    Except Graphql.SyntaxError JsonValue := do
  let documents ← (p.documentTexts code mode).mapM fun t => (PendingDocument.ofText t).describe parsed
  match mode with
  | .wholeFile => return documents.headD .null
  | .embeddedLiteral => return .array documents

end Pipeline

end GraphqlBuild
