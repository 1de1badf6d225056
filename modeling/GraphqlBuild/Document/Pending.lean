import GraphqlBuild.Document.Node
import GraphqlBuild.Normalize
/-!
# Pending documents

A pending document holds its text and what the text announces itself to be; it is parsed only when someone
asks. Until then its outline is empty, so any two pending documents have the same outline.

| here | in the program |
| --- | --- |
| `PendingDocument` | `PendingDocument` with its `DocumentMetadata` |
| `PendingDocument.materialize`, `ofText` | `materialize`, `PendingDocument::new` |
| `node`, `render`, `hasMetadata` | `node`, `render`, `has_metadata` |
| `TemplateText.push`, `TemplateText.finish` | one round of the first loop of `interpolate`, and the second loop |
| `interpolate`, `PendingDocument.ofTemplate` | `interpolate`, `PendingDocument::from_template` |
| `Normalization.document`, `Normalization.template` | `GraphQLTag::document`, `GraphQLTag::template` |
-/

namespace GraphqlBuild

/-- A document whose text is known and whose parsing is put off. -/
structure PendingDocument where
  /-- The text without blanks at its ends. -/
  rawText : Text
  queryType : QueryType
deriving DecidableEq, Repr

namespace PendingDocument

/-- The document of a text. The query type is detected unless it is given. -/
def materialize (t : Text) (queryType : Option QueryType) : PendingDocument :=
  ⟨t.trim, queryType.getD (QueryType.detect t.trim)⟩

/-- The document of a text, its query type detected. -/
def ofText (t : Text) : PendingDocument := materialize t none

/-- The outline, empty until the document is parsed. -/
def node (_ : PendingDocument) : DocumentNode := .placeholder

/-- The text of the document. -/
def render (d : PendingDocument) : Text := d.rawText

/-- The keys under which a document keeps more than its outline. -/
def metadataKeys : List Text := ["rawText", "render", "queryType"]

/-- The document keeps something under the key. -/
def hasMetadata (_ : PendingDocument) (key : Text) : Bool := metadataKeys.contains key

end PendingDocument

/-! ## Templates -/

/-- The text of a template as far as it is put together, and the values that are still to come. -/
structure TemplateText where
  text : Text
  values : List Text
deriving DecidableEq, Repr

namespace TemplateText

/-- The next value behind the text, if there is one. -/
def pushValue (a : TemplateText) : TemplateText :=
  match a.values with
  | [] => a
  | v :: values => ⟨a.text ++ v, values⟩

/-- One round over the strings: a string and its number behind the text, with a value in front of any but the first. -/
def push (a : TemplateText) (s : Text × Nat) : TemplateText :=
  let a := if 0 < s.2 then a.pushValue else a
  { a with text := a.text ++ s.1 }

/-- The text with the values behind it that are left. -/
def finish (a : TemplateText) : Text := a.text ++ a.values.flatten

end TemplateText

/-- The text of a template, put together in one pass over its strings. -/
def interpolate (strings values : List Text) : Text :=
  (strings.zipIdx.foldl TemplateText.push ⟨[], values⟩).finish

/-- The document of a template, its text as it stands. -/
def PendingDocument.ofTemplate (strings values : List Text) : PendingDocument :=
  ofText (interpolate strings values)

/-- The document that a tag with this normalization makes of a text. -/
def Normalization.document (n : Normalization) (t : Text) : PendingDocument := .ofText (n.apply t)

/-- The document that a tag with this normalization makes of a template. -/
def Normalization.template (n : Normalization) (strings values : List Text) : PendingDocument :=
  n.document (interpolate strings values)

end GraphqlBuild
