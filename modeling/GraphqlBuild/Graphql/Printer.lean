import GraphqlBuild.Graphql.Ast
import GraphqlBuild.Graphql.StringValue
/-!
# The printed form of a document

Two spaces indent a level and an empty line parts two definitions. A layout says whether something is
written over several lines, and at which level, or all on one line; arguments and variables are always on
one line.

`Document.print` is what `ParsedDocument::print` writes.
-/

namespace GraphqlBuild.Graphql

/-- The level of indentation, or `none` for one line. -/
abbrev Layout := Option Nat

namespace Layout

/-- A line feed and the indentation; on one line, a space. -/
def newLine : Layout → Text
  | none => [' ']
  | some level => '\n' :: List.replicate (2 * level) ' '

/-- One level deeper. -/
def deeper (layout : Layout) : Layout := layout.map (· + 1)

end Layout

/-! ## Strings -/

/-- The upper-case hexadecimal digit of a number below 16. -/
def upperHexDigit (n : Nat) : Char := (Nat.digitChar n).toUpper

/-- One character of a quoted string. -/
def printChar (c : Char) : Text :=
  if c = '"' then ['\\', '"']
  else if c = '\\' then ['\\', '\\']
  else if c = '\x08' then ['\\', 'b']
  else if c = '\n' then ['\\', 'n']
  else if c = '\x0c' then ['\\', 'f']
  else if c = '\r' then ['\\', 'r']
  else if c.toNat < 0x20 ∧ c ≠ '\t' then
    ['\\', 'u', '0', '0', upperHexDigit (c.toNat / 16), upperHexDigit (c.toNat % 16)]
  else [c]

/-- The quoted form. -/
def printQuoted (t : Text) : Text := '"' :: t.flatMap printChar ++ ['"']

/-- Reading the block form of the text gives the text back. -/
def fitsBlock (t : Text) : Bool :=
  let lines := Text.splitOn (· == '\n') t
  let indents := (lines.filter fun l => !isBlankLine l).map indentOf
  !t.contains '\r' && !(lines.head?.any isBlankLine) && !(lines.getLast?.any isBlankLine) &&
    indents.min?.getD 0 == 0

/-- The longest text, in bytes, whose block form may stand on one line. -/
def blockLineLimit : Nat := 70

/-- The text with a backslash in front of every three quotation marks. -/
def escapeBlock : Text → Text
  | [] => []
  | '"' :: '"' :: '"' :: t => '\\' :: '"' :: '"' :: '"' :: escapeBlock t
  | c :: t => c :: escapeBlock t

/-- The block form. -/
def printBlock (layout : Layout) (t : Text) : Text :=
  let quotes : Text := "\"\"\""
  let ending := t.getLast?.any fun c => c == '"' || c == '\\'
  if !t.contains '\n' && t.size ≤ blockLineLimit && !ending then quotes ++ escapeBlock t ++ quotes
  else
    let lines := (Text.splitOn (· == '\n') t).map fun line =>
      if line.isEmpty then ['\n'] else layout.newLine ++ escapeBlock line
    quotes ++ lines.flatten ++ layout.newLine ++ quotes

/-- A string value; a description prefers the block form. -/
def printString (layout : Layout) (isDescription : Bool) (t : Text) : Text :=
  if layout.isSome && (isDescription || t.contains '\n') && fitsBlock t then printBlock layout t
  else printQuoted t

/-! ## Values -/

/-- The texts with commas: on one line between them, else each on its own line with a comma behind it. -/
def printEnclosed (layout : Layout) (opening closing : Char) (texts : List Text) : Text :=
  match layout, texts with
  | _, [] => [opening, closing]
  | none, ts => opening :: Text.join [',', ' '] ts ++ [closing]
  | some _, ts =>
    opening :: (ts.map fun t => layout.deeper.newLine ++ t ++ [',']).flatten ++ layout.newLine ++
      [closing]

mutual

/-- A value. -/
def printValue (layout : Layout) : Value → Text
  | .variable name => '$' :: name
  | .int digits => digits
  | .float digits => digits
  | .string t => printString layout false t
  | .boolean true => "true"
  | .boolean false => "false"
  | .null => "null"
  | .enum name => name
  | .list items => printEnclosed layout '[' ']' (printItems layout.deeper items)
  | .object fields => printEnclosed layout '{' '}' (printFields layout.deeper fields)

/-- The items of a list. -/
def printItems (layout : Layout) : List Value → List Text
  | [] => []
  | v :: vs => printValue layout v :: printItems layout vs

/-- The fields of an object. -/
def printFields (layout : Layout) : List (Name × Value) → List Text
  | [] => []
  | (name, v) :: fields => (name ++ ": " ++ printValue layout v) :: printFields layout fields

end

/-- Texts in parentheses on one line; nothing if there are none. -/
def printParens (texts : List Text) : Text :=
  if texts.isEmpty then [] else printEnclosed none '(' ')' texts

/-- Arguments in parentheses. -/
def printArguments (args : Arguments) : Text :=
  printParens (args.map fun a => a.1 ++ ": " ++ printValue none a.2)

/-- Directives, each behind a space. -/
def printDirectives (ds : List Directive) : Text :=
  ds.flatMap fun d => " @" ++ d.name ++ printArguments d.arguments

/-- A type. -/
def printType : TypeRef → Text
  | .named n => n
  | .list item => '[' :: printType item ++ [']']
  | .nonNull t => printType t ++ ['!']

/-- A default value behind an equals sign. -/
def printDefault (layout : Layout) : Option Value → Text
  | none => []
  | some v => " = " ++ printValue layout v

/-! ## Operations and fragments -/

/-- Texts in braces, each on its own line; `{}` if there are none. -/
def printBraces (layout : Layout) (texts : List Text) : Text :=
  if texts.isEmpty then "\x7b\x7d"
  else '{' :: (texts.map fun t => layout.deeper.newLine ++ t).flatten ++ layout.newLine ++ ['}']

mutual

/-- A selection. -/
def printSelection (layout : Layout) : Selection → Text
  | .field responseName name args ds set =>
    (match responseName with
      | none => []
      | some a => a ++ ": ") ++
    name ++ printArguments args ++ printDirectives ds ++ printNested layout set
  | .spread name ds => "..." ++ name ++ printDirectives ds
  | .inline condition ds set =>
    "..." ++ (match condition with
      | none => []
      | some t => " on " ++ t) ++
    printDirectives ds ++ ' ' :: printBraces layout (printSelections layout.deeper set)

/-- The selections of a field behind a space; nothing if there are none. -/
def printNested (layout : Layout) : List Selection → Text
  | [] => []
  | s :: ss =>
    ' ' :: printBraces layout (printSelection layout.deeper s :: printSelections layout.deeper ss)

/-- Selections. -/
def printSelections (layout : Layout) : List Selection → List Text
  | [] => []
  | s :: ss => printSelection layout s :: printSelections layout ss

end

/-- Where definitions begin. -/
def topLayout : Layout := some 0

/-- A selection set. -/
def printSet (set : List Selection) : Text :=
  printBraces topLayout (printSelections topLayout.deeper set)

/-- A variable. -/
def printVariable (v : VariableDefinition) : Text :=
  '$' :: v.name ++ ": " ++ printType v.type ++ printDefault none v.default ++
    printDirectives v.directives

/-- An operation. The first thing of a document may be a bare selection set. -/
def printOperation (isFirst : Bool) (o : Operation) : Text :=
  let bare := isFirst && o.type == .query && o.name.isNone && o.parameters.isEmpty &&
    o.directives.isEmpty
  if bare then printSet o.selections
  else
    o.type.name ++ (match o.name with
      | none => []
      | some n => ' ' :: n) ++
    printParens (o.parameters.map printVariable) ++ printDirectives o.directives ++
      ' ' :: printSet o.selections

/-- A fragment. -/
def printFragment (f : Fragment) : Text :=
  "fragment " ++ f.name ++ " on " ++ f.condition ++ printDirectives f.directives ++
    ' ' :: printSet f.selections

/-! ## The type system -/

/-- A description in front of what it describes. -/
def printDescription (layout : Layout) : Option Text → Text
  | none => []
  | some t => printString layout true t ++ layout.newLine

/-- An argument of a field or directive, or a field of an input type. -/
def printInputValue (layout : Layout) (v : InputValue) : Text :=
  printDescription layout v.description ++ v.name ++ ": " ++ printType v.type ++
    printDefault layout v.default ++ printDirectives v.directives

/-- The arguments of a field or directive: on one line unless one of them has a description or
directives. -/
def printArgumentDefinitions (layout : Layout) (args : List InputValue) : Text :=
  if args.any fun a => a.description.isSome || !a.directives.isEmpty then
    printEnclosed layout '(' ')' (args.map (printInputValue layout.deeper))
  else printParens (args.map (printInputValue none))

/-- A field. -/
def printField (layout : Layout) (f : FieldDefinition) : Text :=
  printDescription layout f.description ++ f.name ++ printArgumentDefinitions layout f.arguments ++
    ": " ++ printType f.type ++ printDirectives f.directives

/-- A value of an enum. -/
def printEnumValue (layout : Layout) (v : EnumValue) : Text :=
  printDescription layout v.description ++ v.name ++ printDirectives v.directives

/-- Texts in braces behind a space; nothing if there are none. -/
def printBody (texts : List Text) : Text :=
  if texts.isEmpty then [] else ' ' :: printBraces topLayout texts

/-- Names behind a word, with a separator between each two; nothing if there are none. -/
def printNames (word separator : Text) (names : List Name) : Text :=
  if names.isEmpty then [] else word ++ Text.join separator names

/-- The keyword, name and contents of a type. -/
def printTypeBody (name : Name) (ds : List Directive) (body : TypeBody) : Text :=
  let inside := topLayout.deeper
  let head (word : Text) := word ++ ' ' :: name
  let object (word : Text) (interfaces : List Name) (fields : List FieldDefinition) :=
    head word ++ printNames " implements " " & " interfaces ++ printDirectives ds ++
      printBody (fields.map (printField inside))
  match body with
  | .scalar => head "scalar" ++ printDirectives ds
  | .object interfaces fields => object "type" interfaces fields
  | .interface interfaces fields => object "interface" interfaces fields
  | .union members => head "union" ++ printDirectives ds ++ printNames " = " " | " members
  | .enum values => head "enum" ++ printDirectives ds ++ printBody (values.map (printEnumValue inside))
  | .input fields =>
    head "input" ++ printDirectives ds ++ printBody (fields.map (printInputValue inside))

/-- The root operations of a schema, one a line. -/
def printRoots (roots : List (OperationType × Name)) : List Text :=
  roots.map fun r => r.1.name ++ ": " ++ r.2

/-- The definition of a directive. -/
def printDirectiveDefinition (d : DirectiveDefinition) : Text :=
  printDescription topLayout d.description ++ "directive @" ++ d.name ++
    printArgumentDefinitions topLayout d.arguments ++ (if d.repeatable then " repeatable".toList else []) ++
    printNames " on " " | " d.locations

/-- A definition, told whether it is the first of its document. -/
def printDefinition (isFirst : Bool) : Definition → Text
  | .operation o => printOperation isFirst o
  | .fragment f => printFragment f
  | .directive d => printDirectiveDefinition d
  | .schema s =>
    printDescription topLayout s.description ++ "schema" ++ printDirectives s.directives ++
      ' ' :: printBraces topLayout (printRoots s.roots)
  | .type t => printDescription topLayout t.description ++ printTypeBody t.name t.directives t.body
  | .extendSchema s =>
    "extend schema" ++ printDirectives s.directives ++ printBody (printRoots s.roots)
  | .extendType t => "extend " ++ printTypeBody t.name t.directives t.body

/-- A document: its definitions, each ending its line, with an empty line between each two. -/
def Document.print : Document → Text
  | [] => []
  | d :: ds =>
    printDefinition true d ++ ['\n'] ++
      (ds.flatMap fun e => '\n' :: printDefinition false e ++ ['\n'])

end GraphqlBuild.Graphql
