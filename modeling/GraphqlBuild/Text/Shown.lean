import GraphqlBuild.Text.Hidden
/-!
# Texts shown in messages

A message that quotes a text writes quotation marks, backslashes and characters that do not show by
escapes, so that the reader sees each of them.

`shown` is how the messages of `parse_json` quote a text.
-/

namespace GraphqlBuild.Text

/-- One character of a shown text. -/
def showChar (c : Char) : Text :=
  if c = '"' then ['\\', '"']
  else if c = '\\' then ['\\', '\\']
  else if c = '\t' then ['\\', 't']
  else if c = '\n' then ['\\', 'n']
  else if c = '\r' then ['\\', 'r']
  else if c = '\x00' then ['\\', '0']
  else if isHidden c then '\\' :: 'u' :: '{' :: Nat.toDigits 16 c.toNat ++ ['}']
  else [c]

/-- The text between quotation marks, each character visible. -/
def shown (t : Text) : Text := '"' :: t.flatMap showChar ++ ['"']

end GraphqlBuild.Text
