import GraphqlBuild.Graphql.Parser.Executable
/-!
# Parsing type system definitions and extensions

A definition may begin with a description and then has its keyword; an extension has two keywords and no
description, and must add something.

All of it belongs to the parser that `parse_errors` runs.
-/

namespace GraphqlBuild.Graphql.Parser

/-- Constant directives. -/
def constDirectives : Parser (List Directive) := directives .constant maxDepth

/-! ## Fields and values -/

/-- What stands behind the colon of a field or an input value: a type, and then what `rest` makes of it. -/
def typed {α : Type} (missing : Complaint) (default : α) (rest : TypeRef → Parser α) : Parser α :=
  orComplain (isMark ':') missing default do
    skip
    orComplain (isNameOr '[') .noType default do
      let t ← type maxDepth
      rest t

/-- An argument of a field or directive, or a field of an input type. -/
def inputValue : Parser InputValue := do
  let d ← description?
  let n ← name
  let missing : InputValue :=
    { description := d, name := n, type := .named [], default := none, directives := [] }
  typed .noName missing fun t => do
    let v ← defaultValue
    return { missing with type := t, default := v, directives := ← constDirectives }

/-- The arguments of a field or directive in parentheses. -/
def argumentDefinitions : Parser (List InputValue) := do
  skip
  let values ← someWhile isNameOrString .noArgumentDefinition inputValue
  await .rightParen
  return values

/-- The arguments of a field or directive, if there is an opening parenthesis. -/
def argumentDefinitions? : Parser (List InputValue) :=
  whenever (isMark '(') [] argumentDefinitions

/-- A field of an object or interface. -/
def fieldDefinition : Parser FieldDefinition := do
  let d ← description?
  let n ← name
  let args ← argumentDefinitions?
  let missing : FieldDefinition :=
    { description := d, name := n, arguments := args, type := .named [], directives := [] }
  typed .noTypeHere missing fun t => do
    return { missing with type := t, directives := ← constDirectives }

/-- A value of an enum. -/
def enumValue : Parser EnumValue := do
  let d ← description?
  let n ← orComplain isName .noEnumValue [] do
    if (← isText "true") || (← isText "false") || (← isText "null") then
      complain .reservedEnumValue
    name
  return { description := d, name := n, directives := ← constDirectives }

/-- Items in braces, each beginning with a name or a string. -/
def inBraces {α : Type} (missing : Complaint) (item : Parser α) : Parser (List α) :=
  whenever (isMark '{') [] do
    skip
    let found ← someWhile isNameOrString missing item
    await .rightCurly
    return found

/-- The fields of an object or interface. -/
def fieldDefinitions : Parser (List FieldDefinition) := inBraces .noField fieldDefinition

/-- The values of an enum. -/
def enumValues : Parser (List EnumValue) := inBraces .noEnumValueDefinition enumValue

/-- The fields of an input type. -/
def inputFields : Parser (List InputValue) := inBraces .noInputValue inputValue

/-- The interfaces that a type implements. -/
def implements : Parser (List Name) :=
  whenever (isText "implements") [] do
    skip
    separated '&' (nameOr .noInterfaceName)

/-- The members of a union behind the equals sign. -/
def members : Parser (List Name) :=
  whenever (isMark '=') [] do
    skip
    separated '|' (nameOr .noMember)

/-- An operation type and the name of the type that its selections are of. Without a colon, or without a
name, it comes to nothing. -/
def rootOperation : Parser (Option (OperationType × Name)) := do
  let t ← operationType
  orComplain (isMark ':') .noRootType none do
    skip
    return (← name?).map fun n => (t, n)

/-- The names of the places where a directive may be applied. -/
def locationNames : List Name :=
  ["QUERY", "MUTATION", "SUBSCRIPTION", "FIELD", "FRAGMENT_DEFINITION", "FRAGMENT_SPREAD",
    "INLINE_FRAGMENT", "VARIABLE_DEFINITION", "SCHEMA", "SCALAR", "OBJECT", "FIELD_DEFINITION",
    "ARGUMENT_DEFINITION", "INTERFACE", "UNION", "ENUM", "ENUM_VALUE", "INPUT_OBJECT",
    "INPUT_FIELD_DEFINITION"]

/-- The name of a place where a directive may be applied. -/
def location : Parser Name := do
  match ← word with
  | some w =>
    if w.kind = .name then
      if locationNames.contains w.text then skip; return w.text
      else complain .badLocation; return []
    else complain .noLocation; return []
  | none => return []

/-! ## Definitions -/

/-- Takes the keyword, if it is at hand. -/
def keyword (t : Text) : Parser Unit := do
  if ← isText t then skip

/-- A description and a keyword, both if they are at hand. -/
def heading (word : Text) : Parser (Option Text) := do
  let d ← description?
  keyword word
  return d

/-- A schema. -/
def schemaDefinition : Parser SchemaDefinition := do
  let d ← heading "schema"
  let dirs ← constDirectives
  let roots ← whenever (isMark '{') [] do
    skip
    let found ← someWhile isName .noRootOperation rootOperation
    await .rightCurly
    return found.filterMap id
  return { description := d, directives := dirs, roots }

/-- A scalar type. -/
def scalarDefinition : Parser TypeDefinition := do
  let d ← heading "scalar"
  let n ← name
  return { description := d, name := n, directives := ← constDirectives, body := .scalar }

/-- An object type. -/
def objectDefinition : Parser TypeDefinition := do
  let d ← heading "type"
  let n ← nameOr .noObjectName
  let interfaces ← implements
  let dirs ← constDirectives
  return { description := d, name := n, directives := dirs, body := .object interfaces (← fieldDefinitions) }

/-- An interface. -/
def interfaceDefinition : Parser TypeDefinition := do
  let d ← heading "interface"
  let n ← name
  let interfaces ← implements
  let dirs ← constDirectives
  return { description := d, name := n, directives := dirs, body := .interface interfaces (← fieldDefinitions) }

/-- A union. -/
def unionDefinition : Parser TypeDefinition := do
  let d ← heading "union"
  let n ← name
  let dirs ← constDirectives
  return { description := d, name := n, directives := dirs, body := .union (← members) }

/-- An enum. -/
def enumDefinition : Parser TypeDefinition := do
  let d ← heading "enum"
  let n ← name
  let dirs ← constDirectives
  return { description := d, name := n, directives := dirs, body := .enum (← enumValues) }

/-- An input type. -/
def inputDefinition : Parser TypeDefinition := do
  let d ← heading "input"
  let n ← name
  let dirs ← constDirectives
  return { description := d, name := n, directives := dirs, body := .input (← inputFields) }

/-- A directive's definition. -/
def directiveDefinition : Parser DirectiveDefinition := do
  let d ← heading "directive"
  orComplain (isMark '@') .noAtSign () skip
  let n ← name
  let args ← argumentDefinitions?
  let repeatable ← isText "repeatable"
  if repeatable then skip
  orComplain (isText "on") .noLocations () skip
  let locations ← orComplain (isNameOr '|') .badLocation [] (separated '|' location)
  return { description := d, name := n, arguments := args, repeatable, locations }

/-! ## Extensions -/

/-- The extension of a schema. -/
def schemaExtension : Parser SchemaDefinition := do
  let dirs ← constDirectives
  let found ← whenever (isMark '{') [] do
    skip
    let found ← repeatWhile isName rootOperation
    await .rightCurly
    return found
  if dirs.isEmpty && found.isEmpty then complain .emptySchemaExtension
  return { description := none, directives := dirs, roots := found.filterMap id }

/-- The extension of a type; `present` says whether the body that follows adds anything. -/
def typeExtension (missing : Complaint) (interfaces : Parser (List Name)) (present : Parser Bool)
    (body : List Name → Parser TypeBody) : Parser TypeDefinition := do
  let n ← name
  let implemented ← interfaces
  let dirs ← constDirectives
  let added ← present
  let b ← body implemented
  if dirs.isEmpty && implemented.isEmpty && !added then complain missing
  return { description := none, name := n, directives := dirs, body := b }

/-- An extension; the word after `extend` says of what. -/
def extension : Parser (Option Definition) := do
  let what := ((← second).map Prod.snd).getD []
  let extend (p : Parser TypeDefinition) : Parser (Option Definition) := do
    skip
    skip
    return some (.extendType (← p))
  if what = "schema".toList then
    skip
    skip
    return some (.extendSchema (← schemaExtension))
  else if what = "scalar".toList then
    extend (typeExtension .emptyScalarExtension (pure []) (pure false) fun _ => pure .scalar)
  else if what = "type".toList then
    extend (typeExtension .emptyObjectExtension implements (isMark '{') fun i =>
      .object i <$> fieldDefinitions)
  else if what = "interface".toList then
    extend (typeExtension .emptyInterfaceExtension implements (isMark '{') fun i =>
      .interface i <$> fieldDefinitions)
  else if what = "union".toList then
    extend (typeExtension .emptyUnionExtension (pure []) (isMark '=') fun _ => .union <$> members)
  else if what = "enum".toList then
    extend (typeExtension .emptyEnumExtension (pure []) (isMark '{') fun _ => .enum <$> enumValues)
  else if what = "input".toList then
    extend (typeExtension .emptyInputExtension (pure []) (isMark '{') fun _ => .input <$> inputFields)
  else
    reject .noExtension
    return none

end GraphqlBuild.Graphql.Parser
