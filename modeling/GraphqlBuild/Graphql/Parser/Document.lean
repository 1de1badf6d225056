import GraphqlBuild.Graphql.Parser.TypeSystem
/-!
# Parsing a document

A definition is told by its keyword, which stands first or behind a description. `Document.ofText` gives
the document together with everything that is wrong with the text, in the order of the offsets; the
document means something only if nothing is wrong.

| here | in the program |
| --- | --- |
| `Document.ofText` | the parser's run in `parse_errors` and `ParsedDocument::parse` |
| `byOffset` | the order of `parse_errors` |
-/

namespace GraphqlBuild.Graphql

namespace Parser

/-- The definition that the keyword announces. -/
def definitionOf (announced : Text) : Parser (Option Definition) := do
  if announced = "directive".toList then return some (.directive (← directiveDefinition))
  else if announced = "enum".toList then return some (.type (← enumDefinition))
  else if announced = "extend".toList then extension
  else if announced = "fragment".toList then return some (.fragment (← fragment))
  else if announced = "input".toList then return some (.type (← inputDefinition))
  else if announced = "interface".toList then return some (.type (← interfaceDefinition))
  else if announced = "type".toList then return some (.type (← objectDefinition))
  else if announced = "scalar".toList then return some (.type (← scalarDefinition))
  else if announced = "schema".toList then return some (.schema (← schemaDefinition))
  else if announced = "union".toList then return some (.type (← unionDefinition))
  else if announced = "query".toList ∨ announced = "mutation".toList ∨ announced = "subscription".toList ∨ announced = "\x7b".toList then
    return some (.operation (← operation))
  else
    reject .noDefinition
    return none

/-- The definition at hand. -/
def definition : Parser (Option Definition) := do
  match ← word with
  | none => return none
  | some w =>
    if w.kind = .string then definitionOf (((← second).map Prod.snd).getD [])
    else if w.kind = .name ∨ w.kind = .mark '{' then definitionOf w.text
    else
      reject .noDefinitionStart
      return none

/-- The word at hand is not the end of the text. -/
def isOpen : Parser Bool := do return (← word).any fun w => w.kind != .stop

/-- A whole document. -/
def document : Parser Document := do
  if ← isKind .stop then complain .emptyDocument
  return (← repeatWhile isOpen definition).filterMap id

end Parser

/-- What is wrong at a place of a text. -/
inductive Problem
  | lexical (fault : LexicalFault)
  | grammatical (complaint : Complaint)
deriving DecidableEq, Repr

/-- The wording of a problem. -/
def Problem.message : Problem → Text
  | lexical fault => fault.message
  | grammatical complaint => complaint.message

/-- Inserts a problem behind those of no greater offset. -/
def insertByOffset (p : Problem × Nat) : List (Problem × Nat) → List (Problem × Nat)
  | [] => [p]
  | q :: rest => if p.2 < q.2 then p :: q :: rest else q :: insertByOffset p rest

/-- The problems by ascending offset; those of one offset keep their order. -/
def byOffset (problems : List (Problem × Nat)) : List (Problem × Nat) :=
  problems.foldl (fun sorted p => insertByOffset p sorted) []

/-- The document of a text, and what is wrong with the text. -/
def Document.ofText (t : Text) : Document × List (Problem × Nat) :=
  let ls := lexemes t
  let (document, parse) := Parser.document.run { words := wordsOf (tokensOf ls) }
  let lexical := (faultsOf ls).map fun f => (Problem.lexical f.1, f.2)
  let grammatical := parse.complaints.reverse.map fun c => (Problem.grammatical c.1, c.2)
  (document, byOffset (lexical ++ grammatical))

end GraphqlBuild.Graphql
