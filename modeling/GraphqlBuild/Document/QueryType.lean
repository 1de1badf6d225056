import GraphqlBuild.Text.Blank
/-!
# Query types

What a document announces itself to be, read off its first word without parsing it.

| here | in the program |
| --- | --- |
| `QueryType.all`, `QueryType.name` | `QueryType::KEYWORDS`, `QueryType::as_str` |
| `QueryType.opens` | the test of one keyword in `QueryType::detect` |
| `QueryType.detect` | `QueryType::detect` |
-/

namespace GraphqlBuild

/-- The kind of operation, or a fragment. -/
inductive QueryType
  | query
  | mutation
  | subscription
  | fragment
deriving DecidableEq, Repr

namespace QueryType

/-- The query types in the order in which their words are tried. -/
def all : List QueryType := [query, mutation, subscription, fragment]

/-- The word that announces the type. -/
def name : QueryType → Text
  | query => "query"
  | mutation => "mutation"
  | subscription => "subscription"
  | fragment => "fragment"

/-- The text begins with the word, whatever the case of its letters. -/
def opens (kind : QueryType) (t : Text) : Bool :=
  Text.eqIgnoringCase (t.take kind.name.length) kind.name

/-- The type whose word the text begins with after its blanks; a query if there is none. -/
def detect (t : Text) : QueryType := (all.find? fun kind => kind.opens t.trimStart).getD query

end QueryType

end GraphqlBuild
