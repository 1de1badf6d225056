import GraphqlBuild.Graphql.Parser.Value
/-!
# Parsing operations and fragments

`Parser.operation` and `Parser.fragment` belong to the parser that `parse_errors` runs.
-/

namespace GraphqlBuild.Graphql

/-- How deep constructs may nest. -/
def maxDepth : Nat := 500

namespace Parser

/-! ## Selections -/

/-- The name of a fragment, which cannot be `on`. -/
def fragmentName : Parser Name := do
  if (← isName) && (← isText "on") then
    complain .fragmentNamedOn
    return []
  else nameOr .noFragmentName

/-- `on` and the name of a type. -/
def typeCondition : Parser Name := do
  if (← isName) && (← isText "on") then skip else complain .noOn
  nameOr .noConditionName

/-- The selections of a set in braces, which `inner` reads; `none` where the set would nest too deep. -/
def selectionSetWith (inner : Option (Parser (List Selection))) : Parser (List Selection) := do
  skip
  match ← nested inner with
  | none => return []
  | some selections =>
    await .rightCurly
    return selections

/-- A field, perhaps with an alias. -/
def field (depth : Nat) (set : Parser (List Selection)) : Parser Selection := do
  let aliased := (← second).any fun s => s.1 == .mark ':'
  let responseName : Option Name ←
    if aliased then
      let n ← name
      skip
      pure (some n)
    else pure none
  let n ← name
  let args ← arguments? .free depth
  let dirs ← directives .free depth
  let selections ← whenever (isMark '{') [] set
  return .field responseName n args dirs selections

/-- A fragment spread, its dots at hand. -/
def fragmentSpread (depth : Nat) : Parser Selection := do
  skip
  let n ← fragmentName
  return .spread n (← directives .free depth)

/-- An inline fragment, its dots at hand. -/
def inlineFragment (depth : Nat) (set : Parser (List Selection)) : Parser Selection := do
  skip
  let condition ← whenever isName none (some <$> typeCondition)
  let dirs ← directives .free depth
  let selections ← orComplain (isMark '{') .noInlineBody [] set
  return .inline condition dirs selections

/-- What comes of a round of a selection set. -/
inductive Round
  | selected (selection : Selection)
  /-- Three dots by themselves. -/
  | dots
  | done

/-- One selection, if one is at hand. -/
def selection (depth : Nat) (set : Parser (List Selection)) : Parser Round := do
  if ← isKind .spread then
    match ← second with
    | none =>
      reject .noSpread
      return .done
    | some (kind, text) =>
      if kind = .name ∧ text ≠ "on".toList then return .selected (← fragmentSpread depth)
      else if kind = .name ∨ kind = .mark '@' ∨ kind = .mark '{' then
        return .selected (← inlineFragment depth set)
      else
        reject .noSpread
        return .dots
  else if ← isName then return .selected (← field depth set)
  else return .done

/-- Selections in at most `n` rounds, and whether there was any round. -/
def selectionRounds (depth : Nat) (set : Parser (List Selection)) :
    Nat → Parser (List Selection × Bool)
  | 0 => return ([], false)
  | n + 1 => do
    match ← selection depth set with
    | .done => return ([], false)
    | .dots =>
      let (more, _) ← selectionRounds depth set n
      return (more, true)
    | .selected s =>
      let (more, _) ← selectionRounds depth set n
      return (s :: more, true)

/-- The selections of a set, at least one. -/
def selections (depth : Nat) (set : Parser (List Selection)) : Parser (List Selection) := do
  let (found, any) ← selectionRounds depth set (← get).words.length
  if !any then complain .noSelection
  return found

/-- A selection set with `depth` levels open. -/
def selectionSet : (depth : Nat) → Parser (List Selection)
  | 0 => selectionSetWith none
  | depth + 1 => selectionSetWith (some (selections depth (selectionSet depth)))

/-! ## Definitions -/

/-- `query`, `mutation` or `subscription`. -/
def operationType : Parser OperationType := do
  if ← isText "query" then skip; return .query
  else if ← isText "mutation" then skip; return .mutation
  else if ← isText "subscription" then skip; return .subscription
  else
    reject .noOperationType
    return .query

/-- The value that a variable or an input value has when none is given. -/
def defaultValue : Parser (Option Value) :=
  whenever (isMark '=') none do
    skip
    return some (← value .constant maxDepth false)

/-- The variable of a definition, its dollar sign at hand. -/
def variableDefinition : Parser VariableDefinition := do
  let n ← variableName
  let missing : VariableDefinition :=
    { name := n, type := .named [], default := none, directives := [] }
  orComplain (isMark ':') .noName missing do
    skip
    orComplain (isNameOr '[') .noType missing do
      let t ← type maxDepth
      let d ← defaultValue
      return { name := n, type := t, default := d, directives := ← directives .constant maxDepth }

/-- The variables of an operation in parentheses. -/
def variableDefinitions : Parser (List VariableDefinition) := do
  skip
  let parameters ← someWhile (isMark '$') .noVariableDefinition variableDefinition
  await .rightParen
  return parameters

/-- An operation. -/
def operation : Parser Operation := do
  if ← isName then
    let t ← operationType
    let n ← name?
    let parameters ← whenever (isMark '(') [] variableDefinitions
    let dirs ← directives .free maxDepth
    let o : Operation := { type := t, name := n, parameters, directives := dirs }
    if ← isMark '{' then
      return { o with selections := ← selectionSet maxDepth }
    else
      reject .noOperationBody
      return o
  else if ← isMark '{' then
    return { type := .query, selections := ← selectionSet maxDepth }
  else
    reject .noOperation
    return { type := .query }

/-- A fragment; whatever word is at hand stands for its keyword. -/
def fragment : Parser Fragment := do
  skip
  let n ← fragmentName
  let condition ← typeCondition
  let dirs ← directives .free maxDepth
  let set ← orComplain (isMark '{') .noOperationBody [] (selectionSet maxDepth)
  return { name := n, condition, directives := dirs, selections := set }

end Parser

end GraphqlBuild.Graphql
