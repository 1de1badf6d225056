import GraphqlBuild.Graphql.Complaint
import GraphqlBuild.Graphql.Word
/-!
# Parsers over words

A parser takes words from the front and builds something; where the words do not fit it complains at the
word at hand and goes on, so one text can draw many complaints. A loop ends when a round takes no word, so
the number of words left bounds its rounds.

The parser is the one that `parse_errors` and `ParsedDocument::parse` run.
-/

namespace GraphqlBuild.Graphql

/-- The words not yet taken and the complaints so far, last first. -/
structure Parse where
  words : List Word
  complaints : List (Complaint × Nat) := []
  /-- The nesting was too deep, and nothing more is complained about. -/
  silent : Bool := false
deriving DecidableEq, Repr

/-- Takes words and builds something. -/
abbrev Parser (α : Type) := StateM Parse α

namespace Parser

/-! ## The word at hand -/

/-- The word at hand; none once the end of the text has been taken. -/
def word : Parser (Option Word) := do return (← get).words.head?

/-- The word at hand is of that kind. -/
def isKind (kind : Kind) : Parser Bool := do return (← word).any fun w => w.kind == kind

/-- The word at hand is that mark. -/
def isMark (c : Char) : Parser Bool := isKind (.mark c)

/-- The word at hand is a name. -/
def isName : Parser Bool := isKind .name

/-- The word at hand has that text. -/
def isText (t : Text) : Parser Bool := do return (← word).any fun w => w.text == t

/-- The word at hand is a name or that mark. -/
def isNameOr (c : Char) : Parser Bool := do return (← isName) || (← isMark c)

/-- The word at hand is a name or a string. -/
def isNameOrString : Parser Bool := do return (← isName) || (← isKind .string)

/-- Kind and text of what follows the word at hand; a comma counts. -/
def second : Parser (Option (Kind × Text)) := do
  match (← get).words with
  | w :: rest =>
    if w.comma then return some (.comma, [','])
    else return rest.head?.map fun n => (n.kind, n.text)
  | [] => return none

/-- Takes the word at hand. -/
def skip : Parser Unit := modify fun s => { s with words := s.words.drop 1 }

/-- Complains at an offset. -/
def complainAt (offset : Nat) (complaint : Complaint) : Parser Unit :=
  modify fun s =>
    if s.silent then s else { s with complaints := (complaint, offset) :: s.complaints }

/-- Complains at the word at hand. -/
def complain (complaint : Complaint) : Parser Unit := do
  match ← word with
  | some w => complainAt w.offset complaint
  | none => return ()

/-- Complains at the word at hand and takes it. -/
def reject (complaint : Complaint) : Parser Unit := do
  complain complaint
  skip

/-- Complains that the nesting is too deep; nothing is complained about after that. -/
def tooDeep : Parser Unit := do
  complain .tooDeep
  modify fun s => { s with silent := true }

/-- Takes the awaited mark, or complains about the word in its place. -/
def await (awaited : Awaited) : Parser Unit := do
  match ← word with
  | some w =>
    if w.kind = .mark awaited.mark then skip else complainAt w.offset (.instead awaited w.text)
  | none => return ()

/-! ## Choice and repetition -/

/-- The parser's result if the test holds, else the default. -/
def whenever {α : Type} (test : Parser Bool) (default : α) (p : Parser α) : Parser α := do
  if ← test then p else return default

/-- The parser if the test holds, else a complaint and the default. -/
def orComplain {α : Type} (test : Parser Bool) (missing : Complaint) (default : α)
    (p : Parser α) : Parser α := do
  if ← test then p
  else
    complain missing
    return default

/-- At most `n` rounds of `item`, as long as the test holds. -/
def repeatUpTo {α : Type} (test : Parser Bool) (item : Parser α) : Nat → Parser (List α)
  | 0 => return []
  | n + 1 => do
    if ← test then
      let a ← item
      return a :: (← repeatUpTo test item n)
    else return []

/-- `item` as long as the test holds. -/
def repeatWhile {α : Type} (test : Parser Bool) (item : Parser α) : Parser (List α) := do
  repeatUpTo test item (← get).words.length

/-- `item` as long as the test holds, with a complaint if it does not hold at first. -/
def someWhile {α : Type} (test : Parser Bool) (missing : Complaint) (item : Parser α) :
    Parser (List α) := do
  if !(← test) then complain missing
  repeatWhile test item

/-- An optional separator, then items with the separator between them. -/
def separated {α : Type} (c : Char) (item : Parser α) : Parser (List α) := do
  if ← isMark c then skip
  let first ← item
  let more ← repeatWhile (isMark c) (do skip; item)
  return first :: more

end Parser

end GraphqlBuild.Graphql
