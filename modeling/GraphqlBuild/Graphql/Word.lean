import GraphqlBuild.Graphql.Token
/-!
# Words

The grammar reads words: the tokens that are not ignored, each with the little it must know of the ignored
ones behind it.

Words are what the parser of `parse_errors` looks at.
-/

namespace GraphqlBuild.Graphql

/-- A token that the grammar sees. -/
structure Word where
  kind : Kind
  text : Text
  offset : Nat
  /-- A comma stands between this word and the next. -/
  comma : Bool := false
  /-- The ignored token right behind this word. -/
  trailing : Option Token := none
deriving DecidableEq, Repr

/-- The words among the tokens. -/
def wordsOf : List Token → List Word
  | [] => []
  | t :: rest =>
    if t.kind.isIgnored then wordsOf rest
    else
      { kind := t.kind
        text := t.text
        offset := t.offset
        comma := (rest.takeWhile fun r => r.kind.isIgnored).any fun r => r.kind == .comma
        trailing := rest.head?.filter fun r => r.kind.isIgnored } :: wordsOf rest

end GraphqlBuild.Graphql
