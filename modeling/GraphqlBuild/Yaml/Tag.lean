import GraphqlBuild.Yaml.Scalar
/-!
# Tags

A tag is written out between angle brackets, or as a handle and a suffix; what a handle stands for is said
by a directive. A percent sign and two hexadecimal digits stand for a byte.

They are the tags of `parse_yaml`.
-/

namespace GraphqlBuild.Yaml

/-- A tag as it is written; a tag that is written out has the empty handle. -/
structure TagForm where
  handle : Text
  suffix : Text
deriving DecidableEq, Repr

/-- The character can stand in a tag, or, if `wide`, in a tag that is written out. -/
def isTagChar (wide : Bool) (c : Char) : Bool :=
  isWordChar c || (";/?:@&=+$.!~*'()%" : Text).contains c || wide && (",[]" : Text).contains c

/-- The byte that a percent sign and two hexadecimal digits spell. -/
def escapedByte? : Text → Option Nat
  | '%' :: a :: b :: _ => do return (← hexDigit? a) * 16 + (← hexDigit? b)
  | _ => none

/-- The number of bytes of a character, and the bits that its first byte gives. -/
def leadByte? (byte : Nat) : Option (Nat × Nat) :=
  if byte < 0x80 then some (1, byte)
  else if 0xc0 ≤ byte ∧ byte < 0xe0 then some (2, byte % 0x20)
  else if 0xe0 ≤ byte ∧ byte < 0xf0 then some (3, byte % 0x10)
  else if 0xf0 ≤ byte ∧ byte < 0xf8 then some (4, byte % 0x08)
  else none

/-- The number that `n` further bytes spell after `value`. -/
def trailingBytes? : Nat → Nat → Text → Option Nat
  | 0, value, _ => some value
  | n + 1, value, t => do
    let byte ← escapedByte? t
    if 0x80 ≤ byte ∧ byte < 0xc0 then trailingBytes? n (value * 0x40 + byte % 0x40) (t.drop 3) else none

/-- The character that the escaped bytes at the front spell, and their number. Bytes that are well formed
but spell no character give the replacement character. -/
def escapedChar? (t : Text) : Option (Char × Nat) := do
  let (count, bits) ← leadByte? (← escapedByte? t)
  let value ← trailingBytes? (count - 1) bits (t.drop 3)
  return ((charOf? value).getD '\ufffd', count)

/-- The characters of a tag, at most `n` of them. -/
def readTagText (wide : Bool) : Nat → Reading → Option (Text × Reading)
  | 0, r => some ([], r)
  | n + 1, r =>
    match r.rest with
    | [] => some ([], r)
    | c :: _ =>
      if c = '%' then do
        let (d, count) ← escapedChar? r.rest
        let (later, r) ← readTagText wide n (r.skipMany (3 * count))
        return (d :: later, r)
      else if isTagChar wide c then
        (readTagText wide n r.skip).map fun found => (c :: found.1, found.2)
      else some ([], r)

/-- Some characters of a tag. -/
def readTagName (wide : Bool) (r : Reading) : Option (Text × Reading) := do
  let (text, r) ← readTagText wide r.rest.length r
  if text.isEmpty then none else return (text, r)

/-- The handle at hand: an exclamation mark, word characters and, if there is one, a second mark. -/
def readHandle (r : Reading) : Text × Reading :=
  let word := r.rest.tail.takeWhile isWordChar
  let after := r.skipMany (word.length + 1)
  if after.isAt '!' then ('!' :: word ++ ['!'], after.skip) else ('!' :: word, after)

/-- The handle names a prefix: it ends in a second exclamation mark. -/
def isNamedHandle (handle : Text) : Bool := 1 < handle.length && handle.getLast? == some '!'

/-- The tag whose exclamation mark is at hand. A lone mark is a tag of its own. -/
def readTag (flow : Bool) (r : Reading) : Option (TagForm × Reading) := do
  let (form, after) ←
    if r.ahead? 1 == some '<' then do
      let (text, after) ← readTagName true (r.skipMany 2)
      if after.isAt '>' then some ((⟨[], text⟩ : TagForm), after.skip) else none
    else do
      let (handle, after) := readHandle r
      if isNamedHandle handle then
        let (text, after) ← readTagName false after
        some (⟨handle, text⟩, after)
      else
        let (text, after) ← readTagText false after.rest.length after
        let suffix := handle.tail ++ text
        some (if suffix.isEmpty then ⟨[], ['!']⟩ else ⟨['!'], suffix⟩, after)
  if after.isGap 0 || flow && after.isAt ',' then return (form, after) else none

end GraphqlBuild.Yaml
