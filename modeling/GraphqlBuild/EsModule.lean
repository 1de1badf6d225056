import GraphqlBuild.Document.Pending
/-!
# Emitted modules

The ECMAScript module that takes the place of a GraphQL file. In parse style it parses the text when it is
loaded; in pending style it exports an empty document that carries the text and the query type. The text
enters only inside quoted string literals.

| here | in the program |
| --- | --- |
| `EmitStyle`, `EsModule.emit` | `EmitStyle`, `emit_module` |
| `EsModule.ofText` | `emit_parse_module` |
| `EsModule.ofPending` | `emit_pending_module` |
-/

namespace GraphqlBuild

/-- How a GraphQL file becomes a module. -/
inductive EmitStyle
  | parse
  | pending
deriving DecidableEq, Repr

namespace EsModule

/-- The last lines of every module. -/
def exports : Text := "\n\nexport default documentNode;\nexport \x7b documentNode \x7d;"

/-- The beginning of a module in parse style. -/
def parseOpening : Text := "import \x7b parse \x7d from \"graphql\";\n\nconst documentNode = parse("

/-- The module in parse style. -/
def ofText (t : Text) : Text := parseOpening ++ Json.quoted t ++ ");" ++ exports

/-- The beginning of a module in pending style. -/
def pendingOpening : Text :=
  "import \x7b Kind \x7d from \"graphql\";\n\nconst documentNode = \x7b\n  kind: Kind.DOCUMENT,\n" ++
  "  definitions: [],\n  loc: undefined,\n\x7d;\n\n"

/-- The text in front of the value of a property. -/
def propertyOpening (name : Text) : Text :=
  "Object.defineProperty(documentNode, \"" ++ name ++ "\", \x7b value: "

/-- The text after the value of a property. -/
def propertyClosing : Text := ", enumerable: false, writable: false \x7d);"

/-- A fixed, hidden property of the document node. -/
def property (name value : Text) : Text := propertyOpening name ++ value ++ propertyClosing

/-- The module in pending style. -/
def ofPending (d : PendingDocument) : Text :=
  pendingOpening ++ property "__raw" (Json.quoted d.render) ++
  "\n" ++ property "__queryType" (Json.quoted d.queryType.name) ++
  "\n" ++ property "toString" ("() => ".toList ++ Json.quoted d.render) ++ exports

/-- The module of a text in the given style. -/
def emit (t : Text) : EmitStyle → Text
  | .parse => ofText t
  | .pending => ofPending (.ofText t)

end EsModule

end GraphqlBuild
