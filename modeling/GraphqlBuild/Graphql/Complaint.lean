import GraphqlBuild.Text.Basic
/-!
# Complaints of the grammar

`Complaint.message` is the message of a `ParseError` that the grammar has drawn.
-/

namespace GraphqlBuild.Graphql

/-- A closing mark or sign that is looked for by name. -/
inductive Awaited
  | rightCurly
  | rightParen
  | rightBracket
  | atSign
deriving DecidableEq, Repr

namespace Awaited

/-- The mark itself. -/
def mark : Awaited → Char
  | rightCurly => '}'
  | rightParen => ')'
  | rightBracket => ']'
  | atSign => '@'

/-- How messages name the mark. -/
def name : Awaited → Text
  | rightCurly => "R_CURLY"
  | rightParen => "R_PAREN"
  | rightBracket => "R_BRACK"
  | atSign => "AT"

end Awaited

/-- What the grammar misses or does not admit. -/
inductive Complaint
  | emptyDocument
  | noDefinitionStart
  | noDefinition
  | noOperationBody
  | noOperation
  | noOperationType
  | noSpread
  | noSelection
  | noInlineBody
  | fragmentNamedOn
  | noFragmentName
  | noOn
  | noConditionName
  | noName
  | noArgument
  | variableInConst
  | noValue
  | noVariableDefinition
  | noType
  | noTypeHere
  | noItemType
  | noObjectName
  | noInterfaceName
  | noField
  | noArgumentDefinition
  | noMember
  | noEnumValueDefinition
  | reservedEnumValue
  | noEnumValue
  | noInputValue
  | noRootOperation
  | noRootType
  | noAtSign
  | noLocations
  | badLocation
  | noLocation
  | noExtension
  | emptySchemaExtension
  | emptyScalarExtension
  | emptyObjectExtension
  | emptyInterfaceExtension
  | emptyUnionExtension
  | emptyEnumExtension
  | emptyInputExtension
  | tooDeep
  | instead (awaited : Awaited) (found : Text)
deriving DecidableEq, Repr

/-- The wording of a complaint. -/
def Complaint.message : Complaint → Text
  | emptyDocument => "Unexpected <EOF>."
  | noDefinitionStart => "expected a StringValue, Name or OperationDefinition"
  | noDefinition => "expected definition"
  | noOperationBody => "expected a Selection Set"
  | noOperation => "expected an Operation Type or a Selection Set"
  | noOperationType => "expected either a 'mutation', a 'query', or a 'subscription'"
  | noSpread => "expected an Inline Fragment or a Fragment Spread"
  | noSelection => "expected at least one Selection in Selection Set"
  | noInlineBody => "expected Selection Set"
  | fragmentNamedOn => "Fragment Name cannot be 'on'"
  | noFragmentName => "expected Fragment Name"
  | noOn => "expected 'on'"
  | noConditionName => "expected a Name in Type Condition"
  | noName => "expected a Name"
  | noArgument => "expected an Argument"
  | variableInConst => "unexpected variable value in a Const context"
  | noValue => "expected a valid Value"
  | noVariableDefinition => "expected a Variable Definition"
  | noType => "expected a Type"
  | noTypeHere => "expected a type"
  | noItemType => "expected item type"
  | noObjectName => "expected a name"
  | noInterfaceName => "expected an Interface name"
  | noField => "expected Field Definition"
  | noArgumentDefinition => "expected an Argument Definition"
  | noMember => "expected Union Member Type"
  | noEnumValueDefinition => "expected Enum Value Definition"
  | reservedEnumValue => "invalid Enum Value"
  | noEnumValue => "expected Enum Value"
  | noInputValue => "expected an Input Value Definition"
  | noRootOperation => "expected Root Operation Type Definition"
  | noRootType => "expected a Name Type"
  | noAtSign => "expected @ symbol"
  | noLocations => "expected Directive Locations"
  | badLocation => "expected valid Directive Location"
  | noLocation => "expected Directive Location"
  | noExtension => "Invalid Type System Extension. This extension cannot be applied."
  | emptySchemaExtension => "expected directives or Root Operation Type Definition"
  | emptyScalarExtension => "expected Directives"
  | emptyObjectExtension => "expected an Implements Interface, Directives or a Fields Definition"
  | emptyInterfaceExtension =>
    "exptected an Implements Interfaces, Directives, or a Fields Definition"
  | emptyUnionExtension => "expected Directives or Union Member Types"
  | emptyEnumExtension => "expected Directive or Enum Values Definition"
  | emptyInputExtension => "expected Directives or an Input Fields Definition"
  | tooDeep => "parser recursion limit reached"
  | instead awaited found => "expected " ++ awaited.name ++ ", got " ++ found

end GraphqlBuild.Graphql
