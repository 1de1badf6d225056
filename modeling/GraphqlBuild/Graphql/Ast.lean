import GraphqlBuild.Text.Basic
/-!
# The syntax tree of a GraphQL document

Strings are held decoded; numbers keep the digits they were written with. An extension has the shape of
what it extends.

`Document` is the document that `ParsedDocument::ast` gives.
-/

namespace GraphqlBuild.Graphql

/-- A name of the language. -/
abbrev Name := Text

/-- A value, constant or not. -/
inductive Value
  | variable (name : Name)
  | int (digits : Text)
  | float (digits : Text)
  | string (text : Text)
  | boolean (value : Bool)
  | null
  | enum (name : Name)
  | list (items : List Value)
  | object (fields : List (Name × Value))
deriving Inhabited

/-- Names with values, as a field or a directive takes them. -/
abbrev Arguments := List (Name × Value)

/-- A directive as it is applied. -/
structure Directive where
  name : Name
  arguments : Arguments

/-- A type as it is referred to. -/
inductive TypeRef
  | named (name : Name)
  | list (item : TypeRef)
  | nonNull (type : TypeRef)
deriving Inhabited, DecidableEq

/-- A variable of an operation. -/
structure VariableDefinition where
  name : Name
  type : TypeRef
  default : Option Value
  directives : List Directive

/-- One selection of a selection set. -/
inductive Selection
  | field (responseName : Option Name) (name : Name) (arguments : Arguments)
      (directives : List Directive) (selections : List Selection)
  | spread (name : Name) (directives : List Directive)
  | inline (condition : Option Name) (directives : List Directive) (selections : List Selection)
deriving Inhabited

/-- The three types of operations. -/
inductive OperationType
  | query
  | mutation
  | subscription
deriving DecidableEq, Repr

/-- The keyword of the type. -/
def OperationType.name : OperationType → Name
  | query => "query"
  | mutation => "mutation"
  | subscription => "subscription"

/-- An argument of a field or directive, or a field of an input type, as it is defined. -/
structure InputValue where
  description : Option Text
  name : Name
  type : TypeRef
  default : Option Value
  directives : List Directive

/-- A field as it is defined. -/
structure FieldDefinition where
  description : Option Text
  name : Name
  arguments : List InputValue
  type : TypeRef
  directives : List Directive

/-- A value of an enum as it is defined. -/
structure EnumValue where
  description : Option Text
  name : Name
  directives : List Directive

/-- An operation with its selections. -/
structure Operation where
  type : OperationType
  name : Option Name := none
  parameters : List VariableDefinition := []
  directives : List Directive := []
  selections : List Selection := []

/-- What a type definition says besides its name. -/
inductive TypeBody
  | scalar
  | object (interfaces : List Name) (fields : List FieldDefinition)
  | interface (interfaces : List Name) (fields : List FieldDefinition)
  | union (members : List Name)
  | enum (values : List EnumValue)
  | input (fields : List InputValue)

/-- A type as it is defined or extended. -/
structure TypeDefinition where
  description : Option Text
  name : Name
  directives : List Directive
  body : TypeBody

/-- A schema as it is defined or extended: the root operations with their types. -/
structure SchemaDefinition where
  description : Option Text
  directives : List Directive
  roots : List (OperationType × Name)

/-- A directive as it is defined. -/
structure DirectiveDefinition where
  description : Option Text
  name : Name
  arguments : List InputValue
  repeatable : Bool
  locations : List Name

/-- A fragment with its selections. -/
structure Fragment where
  name : Name
  condition : Name
  directives : List Directive
  selections : List Selection

/-- One definition of a document. -/
inductive Definition
  | operation (o : Operation)
  | fragment (f : Fragment)
  | directive (d : DirectiveDefinition)
  | schema (s : SchemaDefinition)
  | type (t : TypeDefinition)
  | extendSchema (s : SchemaDefinition)
  | extendType (t : TypeDefinition)

/-- A document is its definitions in order. -/
abbrev Document := List Definition

end GraphqlBuild.Graphql
