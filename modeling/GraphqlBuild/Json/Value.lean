import GraphqlBuild.Json.Quoted
/-!
# JSON values and their two written forms

The compact form has no blanks; the pretty form puts each element and each member on its own line, two
spaces deeper than what holds it. Members are written in the order in which they are given.

| here | in the program |
| --- | --- |
| `JsonValue.compact` | a `Value` as `js_string` and `check::run` write it |
| `JsonValue.pretty` | `to_string_pretty` in `print::run` and `check::run` |
-/

namespace GraphqlBuild

/-- A JSON value. The digits of a number are kept as they are to be written. -/
inductive JsonValue
  | null
  | bool (value : Bool)
  | integer (value : Int)
  | decimal (digits : Text)
  | string (text : Text)
  | array (elements : List JsonValue)
  | object (members : List (Text × JsonValue))
deriving Inhabited

namespace JsonValue

/-- The text of a truth value. -/
def boolText : Bool → Text
  | true => "true"
  | false => "false"

/-- The decimal digits of an integer, with a minus sign if it is negative. -/
def integerText : Int → Text
  | .ofNat n => Text.ofNat n
  | .negSucc n => '-' :: Text.ofNat (n + 1)

mutual

/-- The form without blanks. -/
def compact : JsonValue → Text
  | null => "null"
  | bool b => boolText b
  | integer n => integerText n
  | decimal digits => digits
  | string t => Json.quoted t
  | array es => '[' :: compactElements true es ++ [']']
  | object ms => '{' :: compactMembers true ms ++ ['}']

/-- The elements, with a comma in front of all but the first. -/
def compactElements (first : Bool) : List JsonValue → Text
  | [] => []
  | e :: es => (if first then [] else [',']) ++ compact e ++ compactElements false es

/-- The members, with a comma in front of all but the first. -/
def compactMembers (first : Bool) : List (Text × JsonValue) → Text
  | [] => []
  | (name, v) :: ms =>
    (if first then [] else [',']) ++ Json.quoted name ++ ':' :: compact v ++ compactMembers false ms

end

/-- A line feed and two spaces for each level. -/
def newLine (level : Nat) : Text := '\n' :: List.replicate (2 * level) ' '

mutual

/-- The form with one element or member a line, `level` levels deep. -/
def prettyAt (level : Nat) : JsonValue → Text
  | null => "null"
  | bool b => boolText b
  | integer n => integerText n
  | decimal digits => digits
  | string t => Json.quoted t
  | array [] => ['[', ']']
  | array (e :: es) => '[' :: prettyElements (level + 1) true (e :: es) ++ newLine level ++ [']']
  | object [] => ['{', '}']
  | object (m :: ms) => '{' :: prettyMembers (level + 1) true (m :: ms) ++ newLine level ++ ['}']

/-- The elements, each on a line of its own. -/
def prettyElements (level : Nat) (first : Bool) : List JsonValue → Text
  | [] => []
  | e :: es =>
    (if first then [] else [',']) ++ newLine level ++ prettyAt level e ++ prettyElements level false es

/-- The members, each on a line of its own. -/
def prettyMembers (level : Nat) (first : Bool) : List (Text × JsonValue) → Text
  | [] => []
  | (name, v) :: ms =>
    (if first then [] else [',']) ++ newLine level ++ Json.quoted name ++ ':' :: ' ' ::
      prettyAt level v ++ prettyMembers level false ms

end

/-- The form with one element or member a line. -/
def pretty (v : JsonValue) : Text := prettyAt 0 v

end JsonValue

end GraphqlBuild
