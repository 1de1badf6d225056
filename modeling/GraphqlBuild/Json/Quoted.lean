import GraphqlBuild.Text.Basic
/-!
# Quoted strings

The written form of a text as a JSON string, which is also a string literal of ECMAScript: the quotation
mark, the backslash and the characters below space are escaped, all else stands for itself.

`Json.quoted` is `js_string`.
-/

namespace GraphqlBuild.Json

/-- The lower-case hexadecimal digit of a number below 16. -/
def hexDigit (n : Nat) : Char := Nat.digitChar n

/-- One character as it stands inside a quoted string. -/
def escapeChar (c : Char) : Text :=
  if c = '"' then ['\\', '"']
  else if c = '\\' then ['\\', '\\']
  else if c = '\x08' then ['\\', 'b']
  else if c = '\t' then ['\\', 't']
  else if c = '\n' then ['\\', 'n']
  else if c = '\x0c' then ['\\', 'f']
  else if c = '\r' then ['\\', 'r']
  else if c.toNat < 0x20 then
    ['\\', 'u', '0', '0', hexDigit (c.toNat / 16), hexDigit (c.toNat % 16)]
  else [c]

/-- The text between quotation marks. -/
def quoted (t : Text) : Text := '"' :: t.flatMap escapeChar ++ ['"']

end GraphqlBuild.Json
