import GraphqlBuild.Path
/-!
# Routing

What is done with a file follows from its name alone: a GraphQL file is one document, a JavaScript or
TypeScript module holds documents in tagged literals, and all else is left to others.

| here | in the program |
| --- | --- |
| `defaultExtensions` | `DEFAULT_GRAPHQL_EXTENSIONS` |
| `Language.ofPath?`, `requiresExtraction` | `Language::from_path`, `requires_extraction` |
| `SourceMode`, `SourceMode.route` | `SourceMode`, `SourceMode::route` |
-/

namespace GraphqlBuild

/-- The extensions of GraphQL files unless a configuration says otherwise. -/
def defaultExtensions : List Text := ["graphql", "gql"]

/-- The languages told apart by extension. -/
inductive Language
  | graphql
  | typescript
  | javascript
deriving DecidableEq, Repr

namespace Language

/-- The language of an extension; case counts. -/
def ofExtension? (extension : Text) : Option Language :=
  if (["graphql", "gql"] : List Text).contains extension then some graphql
  else if (["ts", "tsx"] : List Text).contains extension then some typescript
  else if (["js", "jsx", "mjs", "cjs"] : List Text).contains extension then some javascript
  else none

/-- The language of the file at a path. -/
def ofPath? (p : Path) : Option Language := p.extension?.bind ofExtension?

/-- GraphQL stands in tagged literals of a host language. -/
def requiresExtraction : Language → Bool
  | graphql => false
  | typescript | javascript => true

end Language

/-- How a source is handled. -/
inductive SourceMode
  /-- The whole source is one document. -/
  | wholeFile
  /-- The documents are tagged literals of a host module. -/
  | embeddedLiteral
deriving DecidableEq, Repr

/-- How the source called `id` is handled, given the extensions of GraphQL files, whose case does not
count. An identity with a query (`?`) belongs to someone else. -/
def SourceMode.route (id : Path) (extensions : List Text) : Option SourceMode :=
  if '?' ∈ id then none
  else if id.extension?.any fun e => extensions.any (Text.eqIgnoringCase · e) then some wholeFile
  else if (Language.ofPath? id).any Language.requiresExtraction then some embeddedLiteral
  else none

end GraphqlBuild
