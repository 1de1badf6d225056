import GraphqlBuild.Json.Value
import GraphqlBuild.Text.Lines
import GraphqlBuild.Text.Shown
import GraphqlBuild.Decimal.Shortest
/-!
# Faults of a JSON text

Why reading stopped, and after how many bytes. The message gives the line, from one, and the number of
bytes read on it.

`parse_json` puts `Fault.message` into its `ConfigError::Invalid`.
-/

namespace GraphqlBuild.Json

/-- A value where another kind of value is wanted, named as far as it was read. -/
inductive Unexpected
  | null
  | bool (value : Bool)
  | integer (value : Int)
  | decimal (digits : Text)
  | string (text : Text)
  | sequence
  | map
deriving DecidableEq, Repr

/-- How a message names the value. -/
def Unexpected.text : Unexpected → Text
  | null => "null"
  | bool b => "boolean `" ++ JsonValue.boolText b ++ "`"
  | integer n => "integer `" ++ JsonValue.integerText n ++ "`"
  | decimal digits => "floating point `" ++ digits ++ "`"
  | string t => "string " ++ t.shown
  | sequence => "sequence"
  | map => "map"

/-- Why a JSON text cannot be read as what is wanted. -/
inductive Cause
  | endInValue
  | endInString
  | endInObject
  | endInList
  | noValue
  | misspeltLiteral
  | noColon
  | noCommaInObject
  | noCommaInList
  | keyNotString
  | trailingComma
  | trailingCharacters
  | badNumber
  | numberOutOfRange
  | badEscape
  | cutSurrogatePair
  | loneSurrogate
  | controlCharacter
  /-- Another kind of value was wanted. -/
  | wrongType (found : Unexpected) (wanted : Text)
  /-- A list stands for a record but is too short. -/
  | wrongLength (found : Nat) (wanted : Text)
  | unknownField (name : Text) (known : List Text)
  | duplicateField (name : Text)
deriving DecidableEq, Repr

/-- The names between backticks, separated by commas. -/
def quoteAll (names : List Text) : Text :=
  Text.join ", " (names.map fun n => "`" ++ n ++ "`")

/-- The wording of a cause. -/
def Cause.message : Cause → Text
  | endInValue => "EOF while parsing a value"
  | endInString => "EOF while parsing a string"
  | endInObject => "EOF while parsing an object"
  | endInList => "EOF while parsing a list"
  | noValue => "expected value"
  | misspeltLiteral => "expected ident"
  | noColon => "expected `:`"
  | noCommaInObject => "expected `,` or `\x7d`"
  | noCommaInList => "expected `,` or `]`"
  | keyNotString => "key must be a string"
  | trailingComma => "trailing comma"
  | trailingCharacters => "trailing characters"
  | badNumber => "invalid number"
  | numberOutOfRange => "number out of range"
  | badEscape => "invalid escape"
  | cutSurrogatePair => "unexpected end of hex escape"
  | loneSurrogate => "lone leading surrogate in hex escape"
  | controlCharacter => "control character (\\u0000-\\u001F) found while parsing a string"
  | wrongType found wanted => "invalid type: " ++ found.text ++ ", expected " ++ wanted
  | wrongLength found wanted => "invalid length " ++ Text.ofNat found ++ ", expected " ++ wanted
  | unknownField name known =>
    "unknown field `" ++ name ++ "`, expected one of " ++ quoteAll known
  | duplicateField name => "duplicate field `" ++ name ++ "`"

/-- A cause and the number of bytes read when it showed. -/
structure Fault where
  cause : Cause
  offset : Nat
deriving DecidableEq, Repr

/-- The wording of the fault in a text: the cause, then the line and the bytes read on it. -/
def Fault.message (source : Text) (fault : Fault) : Text :=
  let (line, column) := (LineIndex.ofText source).lineCol fault.offset
  fault.cause.message ++ " at line " ++ Text.ofNat (line + 1) ++ " column " ++ Text.ofNat column

end GraphqlBuild.Json
