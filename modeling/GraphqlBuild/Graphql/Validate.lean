import GraphqlBuild.Graphql.Parser.Document
/-!
# Validation

A text is valid if nothing is wrong with it; otherwise its first problem, by offset, is the answer. Lines
and columns of a reported error count from one.

| here | in the program |
| --- | --- |
| `SyntaxError`, its `display` | `ParseError` and how it is displayed |
| `SyntaxError.located` | `ParseError::at` |
| `syntaxErrors`, `validate` | `parse_errors`, `validate` |
-/

namespace GraphqlBuild.Graphql

/-- A problem and its place in the text. -/
structure SyntaxError where
  problem : Problem
  offset : Nat
  line : Nat
  column : Nat
deriving DecidableEq, Repr

namespace SyntaxError

/-- The error of a problem at an offset of the text that the index belongs to. -/
def located (index : LineIndex) (p : Problem × Nat) : SyntaxError :=
  let (line, column) := index.lineCol p.2
  ⟨p.1, p.2, line + 1, column + 1⟩

/-- What is wrong. -/
def message (e : SyntaxError) : Text := e.problem.message

/-- What is wrong, and where. -/
def display (e : SyntaxError) : Text :=
  e.message ++ " (line " ++ Text.ofNat e.line ++ ", column " ++ Text.ofNat e.column ++ ")"

end SyntaxError

/-- All that is wrong with a text, by ascending offset. -/
def syntaxErrors (t : Text) : List SyntaxError :=
  (Document.ofText t).2.map (SyntaxError.located (LineIndex.ofText t))

/-- The first thing that is wrong with a text. -/
def validate (t : Text) : Except SyntaxError Unit :=
  match syntaxErrors t with
  | [] => .ok ()
  | e :: _ => .error e

end GraphqlBuild.Graphql
