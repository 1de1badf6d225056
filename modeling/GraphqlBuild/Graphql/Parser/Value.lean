import GraphqlBuild.Graphql.Ast
import GraphqlBuild.Graphql.Parser.Basic
import GraphqlBuild.Graphql.StringValue
/-!
# Parsing names, values, types and directives

Lists, object fields and list types may nest; `inner` is the parser for what they hold, or `none` where
that would nest too deep. The levels still open are the argument of the recursion.

All of it belongs to the parser that `parse_errors` runs.
-/

namespace GraphqlBuild.Graphql

/-- The value that a name by itself stands for. -/
def Value.ofName (t : Name) : Value :=
  if t = "true".toList then .boolean true
  else if t = "false".toList then .boolean false
  else if t = "null".toList then .null
  else .enum t

namespace Parser

/-! ## Names -/

/-- A name, or the complaint that it is missing. -/
def nameOr (missing : Complaint) : Parser Name := do
  match ← word with
  | some w =>
    if w.kind = .name then skip; return w.text
    else complain missing; return []
  | none => return []

/-- A name. -/
def name : Parser Name := nameOr .noName

/-- A name, if one is at hand. -/
def name? : Parser (Option Name) := whenever isName none (some <$> name)

/-- A string, if one is at hand. -/
def description? : Parser (Option Text) := do
  match ← word with
  | some w => if w.kind = .string then skip; return some (stringValue w.text) else return none
  | none => return none

/-- A variable; whatever word is at hand stands for the dollar sign. -/
def variableName : Parser Name := do
  skip
  name

/-! ## Values -/

/-- Whether variables may stand in a value. -/
inductive Constancy
  | constant
  | free
deriving DecidableEq, Repr

/-- Complains about the word at hand, which is also taken if `take` says so. -/
def refuse (take : Bool) (complaint : Complaint) : Parser Unit :=
  if take then reject complaint else complain complaint

/-- What `inner` builds, or the complaint that it would nest too deep. -/
def nested {α : Type} : Option (Parser α) → Parser (Option α)
  | none => do tooDeep; return none
  | some p => some <$> p

/-- The items of a list up to its closing bracket or the end of the text, in at most `n` rounds. -/
def listItems (inner : Option (Parser Value)) : Nat → Parser (List Value)
  | 0 => return []
  | n + 1 => do
    if ← isMark ']' then
      skip
      return []
    else if (← word).all fun w => w.kind == .stop then return []
    else
      match ← nested inner with
      | none => return []
      | some v => return v :: (← listItems inner n)

/-- A list in brackets. -/
def list (inner : Option (Parser Value)) : Parser Value := do
  skip
  return .list (← listItems inner (← get).words.length)

/-- A name and, after a colon, a value. Without a colon it comes to nothing. -/
def member (inner : Option (Parser Value)) : Parser (Option (Name × Value)) := do
  let n ← name
  if ← isMark ':' then
    skip
    return (← nested inner).map fun v => (n, v)
  else return none

/-- An object in braces. -/
def object (inner : Option (Parser Value)) : Parser Value := do
  skip
  let fields ← repeatWhile isName (member inner)
  await .rightCurly
  return .object (fields.filterMap id)

/-- A value whose parts `inner` reads. A word that cannot begin a value is complained about, and taken if
`take` says so. -/
def valueWith (inner : Option (Parser Value)) (constancy : Constancy) (take : Bool) :
    Parser Value := do
  match ← word with
  | none => return .null
  | some w =>
    match w.kind with
    | .mark '$' =>
      if constancy = .constant then refuse take .variableInConst
      return .variable (← variableName)
    | .int => skip; return .int w.text
    | .float => skip; return .float w.text
    | .string => skip; return .string (stringValue w.text)
    | .name => skip; return .ofName w.text
    | .mark '[' => list inner
    | .mark '{' => object inner
    | _ =>
      refuse take .noValue
      return .null

/-- A value with `depth` levels open. -/
def value (constancy : Constancy) : (depth : Nat) → (take : Bool) → Parser Value
  | 0, take => valueWith none constancy take
  | depth + 1, take => valueWith (some (value constancy depth true)) constancy take

/-- Arguments in parentheses. -/
def arguments (constancy : Constancy) (depth : Nat) : Parser Arguments := do
  skip
  let args ← someWhile isName .noArgument (member (some (value constancy depth false)))
  await .rightParen
  return args.filterMap id

/-- Arguments, if there is an opening parenthesis. -/
def arguments? (constancy : Constancy) (depth : Nat) : Parser Arguments :=
  whenever (isMark '(') [] (arguments constancy depth)

/-! ## Directives -/

/-- One directive. -/
def directive (constancy : Constancy) (depth : Nat) : Parser Directive := do
  await .atSign
  let n ← name
  return { name := n, arguments := ← arguments? constancy depth }

/-- The directives at hand. -/
def directives (constancy : Constancy) (depth : Nat) : Parser (List Directive) :=
  repeatWhile (isMark '@') (directive constancy depth)

/-! ## Types -/

/-- The exclamation mark behind a type, if there is one. -/
def nullability (type : TypeRef) : Parser TypeRef := do
  if ← isMark '!' then
    skip
    return .nonNull type
  else return type

/-- The closing bracket of a list type whose item was the word that is no type: what stands right behind
that word must be the bracket, so a blank or a comment in between is complained about. -/
def closeAfter (wrong : Word) : Parser Unit :=
  match wrong.trailing with
  | some t => complainAt t.offset (.instead .rightBracket t.text)
  | none => await .rightBracket

/-- A type whose item `inner` reads, or the word that cannot begin a type, which is taken. -/
def typeWith (inner : Option (Parser (Except Word TypeRef))) : Parser (Except Word TypeRef) := do
  match ← word with
  | none => return .ok (.named [])
  | some w =>
    match w.kind with
    | .mark '[' =>
      skip
      match ← nested inner with
      | none => return .ok (.named [])
      | some (.ok item) =>
        await .rightBracket
        return .ok (← nullability (.list item))
      | some (.error wrong) =>
        complainAt wrong.offset .noItemType
        closeAfter wrong
        return .ok (← nullability (.named []))
    | .name =>
      skip
      return .ok (← nullability (.named w.text))
    | _ =>
      skip
      return .error w

/-- A type with `depth` levels open. -/
def type? : (depth : Nat) → Parser (Except Word TypeRef)
  | 0 => typeWith none
  | depth + 1 => typeWith (some (type? depth))

/-- A type; a word that cannot begin one is taken and complained about. -/
def type (depth : Nat) : Parser TypeRef := do
  match ← type? depth with
  | .ok t => return t
  | .error wrong =>
    complainAt wrong.offset .noTypeHere
    return .named []

end Parser

end GraphqlBuild.Graphql
