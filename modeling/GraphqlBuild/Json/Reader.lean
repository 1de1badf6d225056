import GraphqlBuild.Json.Fault
/-!
# Reading JSON

A reader takes values of the kind it is asked for from the front of a text; the first fault stops it. A
fault found by looking at the next byte counts that byte as read. The elements and members of a value are
read one by one, so a fault in the first is reported before one in the second.

So `parse_json` reads a configuration.
-/

namespace GraphqlBuild.Json

/-- What is left of the text, and the bytes before it. -/
structure Cursor where
  rest : Text
  offset : Nat
deriving DecidableEq, Repr

/-- Takes something from the front of the text. -/
abbrev Reader (α : Type) := Cursor → Except Fault (α × Cursor)

namespace Cursor

/-- The character is a blank between JSON tokens. -/
def isSpace (c : Char) : Bool := c == ' ' || c == '\t' || c == '\n' || c == '\r'

/-- The cursor after the blanks at the front. -/
def skip (c : Cursor) : Cursor :=
  ⟨c.rest.dropWhile isSpace, c.offset + Text.size (c.rest.takeWhile isSpace)⟩

/-- The cursor after one character. -/
def next : Cursor → Cursor
  | ⟨[], n⟩ => ⟨[], n⟩
  | ⟨c :: t, n⟩ => ⟨t, n + c.utf8Size⟩

/-- A fault with nothing more read. -/
def fault {α : Type} (c : Cursor) (cause : Cause) : Except Fault α := .error ⟨cause, c.offset⟩

/-- A fault seen at the next byte, or at the end of the text. -/
def peekFault {α : Type} (c : Cursor) (cause : Cause) : Except Fault α :=
  .error ⟨cause, c.offset + if c.rest.isEmpty then 0 else 1⟩

end Cursor

/-- Reads the rest of a word whose first character is read. -/
def readWord : Text → Reader Unit
  | [], c => .ok ((), c)
  | w :: ws, c =>
    match c.rest with
    | [] => c.fault .endInValue
    | d :: _ => if d = w then readWord ws c.next else .error ⟨.misspeltLiteral, c.offset + 1⟩

/-! ## Strings -/

/-- The value of a hexadecimal digit. -/
def hexValue? (c : Char) : Option Nat :=
  if '0' ≤ c ∧ c ≤ '9' then some (c.toNat - '0'.toNat)
  else if 'a' ≤ c ∧ c ≤ 'f' then some (c.toNat - 'a'.toNat + 10)
  else if 'A' ≤ c ∧ c ≤ 'F' then some (c.toNat - 'A'.toNat + 10)
  else none

/-- The number that four hexadecimal digits spell. -/
def hexValue4? (a b c d : Char) : Option Nat := do
  return (((← hexValue? a) * 16 + (← hexValue? b)) * 16 + (← hexValue? c)) * 16 + (← hexValue? d)

/-- What an escape of one character stands for. -/
def plainEscape? (c : Char) : Option Char :=
  if c = '"' ∨ c = '\\' ∨ c = '/' then some c
  else if c = 'b' then some '\x08'
  else if c = 'f' then some '\x0c'
  else if c = 'n' then some '\n'
  else if c = 'r' then some '\r'
  else if c = 't' then some '\t'
  else none

/-- The fault of four characters, the first at `offset`, that are no hexadecimal number. -/
def hexFault (offset : Nat) (t : Text) : Fault :=
  if t.size < 4 then ⟨.endInString, offset + t.size⟩ else ⟨.badEscape, offset + 4⟩

/-- The first half of a surrogate pair. -/
def isHighSurrogate (n : Nat) : Bool := 0xd800 ≤ n && n ≤ 0xdbff

/-- The second half of a surrogate pair. -/
def isLowSurrogate (n : Nat) : Bool := 0xdc00 ≤ n && n ≤ 0xdfff

/-- The character of a surrogate pair. -/
def ofSurrogates (high low : Nat) : Char :=
  Char.ofNat ((high - 0xd800) * 0x400 + (low - 0xdc00) + 0x10000)

/-- The characters up to the closing quotation mark, the first of them at `offset`. -/
def readChars (offset : Nat) : Text → Except Fault (Text × Cursor)
  | [] => .error ⟨.endInString, offset⟩
  | '"' :: t => .ok ([], ⟨t, offset + 1⟩)
  | '\\' :: 'u' :: t =>
    match t with
    | a :: b :: c :: d :: t' =>
      match hexValue4? a b c d with
      | none => .error (hexFault (offset + 2) (a :: b :: c :: d :: t'))
      | some n =>
        if isLowSurrogate n then .error ⟨.loneSurrogate, offset + 6⟩
        else if isHighSurrogate n then
          match t' with
          | '\\' :: 'u' :: e :: f :: g :: h :: t'' =>
            match hexValue4? e f g h with
            | none => .error (hexFault (offset + 8) (e :: f :: g :: h :: t''))
            | some low =>
              if isLowSurrogate low then
                (readChars (offset + 12) t'').map fun r => (ofSurrogates n low :: r.1, r.2)
              else .error ⟨.loneSurrogate, offset + 12⟩
          | '\\' :: 'u' :: short => .error (hexFault (offset + 8) short)
          | [] => .error ⟨.endInString, offset + 6⟩
          | ['\\'] => .error ⟨.endInString, offset + 7⟩
          | '\\' :: _ => .error ⟨.cutSurrogatePair, offset + 8⟩
          | _ :: _ => .error ⟨.cutSurrogatePair, offset + 7⟩
        else (readChars (offset + 6) t').map fun r => (Char.ofNat n :: r.1, r.2)
    | short => .error (hexFault (offset + 2) short)
  | ['\\'] => .error ⟨.endInString, offset + 1⟩
  | '\\' :: e :: t =>
    match plainEscape? e with
    | some c => (readChars (offset + 2) t).map fun r => (c :: r.1, r.2)
    | none => .error ⟨.badEscape, offset + 2⟩
  | c :: t =>
    if c.toNat < 0x20 then .error ⟨.controlCharacter, offset + 1⟩
    else (readChars (offset + c.utf8Size) t).map fun r => (c :: r.1, r.2)

/-- The string whose opening quotation mark is read. -/
def readString : Reader Text := fun c => readChars c.offset c.rest

/-! ## Numbers -/

/-- How many integers a word of 64 bits tells apart, and so the first one that is too great. -/
def wordLimit : Nat := 0x10000000000000000

/-- The first number that is too great for an exponent, `2^31`. -/
def exponentLimit : Nat := 0x80000000

/-- A number as a message names it: an integer of at most 64 bits, or anything else. -/
def numberOf (negative : Bool) (significand : Nat) (power : Int) (whole : Bool) : Option Unexpected :=
  if whole ∧ !negative then some (.integer significand)
  else if whole ∧ 0 < significand ∧ significand ≤ 0x8000000000000000 then some (.integer (-significand))
  else
    (Binary64.ofParts? significand power).map fun v =>
      .decimal ((if negative then ['-'] else []) ++ v.shortest.text)

/-- The value of a digit. -/
def digitValue (c : Char) : Nat := c.toNat - '0'.toNat

/-- Appends the digits at the front to `n` for as long as the number stays below `limit`; the number, how
many digits it took, and the text after them. -/
def gather (limit n count : Nat) : Text → Nat × Nat × Text
  | [] => (n, count, [])
  | c :: t =>
    if c.isDigit ∧ n * 10 + digitValue c < limit then
      gather limit (n * 10 + digitValue c) (count + 1) t
    else (n, count, c :: t)

/-- How many digits are at the front. -/
def digitCount (t : Text) : Nat := (t.takeWhile Char.isDigit).length

/-- The cursor after the digits at the front. -/
def Cursor.skipDigits (c : Cursor) : Cursor :=
  ⟨c.rest.dropWhile Char.isDigit, c.offset + digitCount c.rest⟩

/-- The number of this significand and power, which ends at the cursor. -/
def finish (negative : Bool) (significand : Nat) (power : Int) (whole : Bool) : Reader Unexpected :=
  fun c =>
    match numberOf negative significand power whole with
    | some u => .ok (u, c)
    | none => c.fault .numberOutOfRange

/-- The number whose exponent is at the front, behind the letter and the sign. An exponent that is too great
is out of range as soon as it shows, unless it makes the number zero. -/
def readExponent (negative : Bool) (significand : Nat) (power : Int) (down : Bool) : Reader Unexpected :=
  fun c =>
    match c.rest with
    | [] => c.fault .endInValue
    | d :: _ =>
      if d.isDigit then
        let (n, count, rest) := gather exponentLimit 0 0 c.rest
        let after : Cursor := ⟨rest, c.offset + count⟩
        if rest.head?.any Char.isDigit then
          if significand = 0 ∨ down then finish negative 0 0 false after.skipDigits
          else after.next.fault .numberOutOfRange
        else finish negative significand (if down then power - n else power + n) false after
      else .error ⟨.badNumber, c.offset + 1⟩

/-- The number of this significand and power, or with the exponent that comes next. -/
def readPower (negative : Bool) (significand : Nat) (power : Int) (whole : Bool) : Reader Unexpected :=
  fun c =>
    match c.rest with
    | e :: t =>
      if e = 'e' ∨ e = 'E' then
        match t with
        | '+' :: _ => readExponent negative significand power false c.next.next
        | '-' :: _ => readExponent negative significand power true c.next.next
        | _ => readExponent negative significand power false c.next
      else finish negative significand power whole c
    | [] => finish negative significand power whole c

/-- The number whose minus sign, if any, is read. Digits go into the significand while it fits a word;
further ones count as zeros in front of the point, and as nothing behind it. -/
def readNumber (negative : Bool) : Reader Unexpected := fun c =>
  match c.rest with
  | [] => c.fault .endInValue
  | d :: t =>
    if !d.isDigit then .error ⟨.badNumber, c.offset + 1⟩
    else if d = '0' ∧ t.head?.any Char.isDigit then .error ⟨.badNumber, c.offset + 2⟩
    else
      let (significand, _, dropped) := gather wordLimit 0 0 c.rest
      let zeros := digitCount dropped
      let point := c.skipDigits
      match point.rest with
      | '.' :: fraction =>
        if digitCount fraction = 0 then
          point.next.peekFault (if fraction.isEmpty then .endInValue else .badNumber)
        else
          let (significand, places, _) := gather wordLimit significand 0 fraction
          readPower negative significand (zeros - places) false point.next.skipDigits
      | _ => readPower negative significand zeros (zeros == 0) point

/-! ## Values of a wanted kind -/

/-- The fault of a value at the front that is not of the wanted kind. Scalars are read first. -/
def refuse {α : Type} (wanted : Text) (c : Cursor) : Except Fault α :=
  let wrong (r : Except Fault (Unexpected × Cursor)) : Except Fault α := do
    let (found, after) ← r
    after.fault (.wrongType found wanted)
  let word (w : Text) (u : Unexpected) := (readWord w c.next).map fun r => (u, r.2)
  match c.rest with
  | [] => c.peekFault .noValue
  | d :: _ =>
    if d = 'n' then wrong (word "ull" .null)
    else if d = 't' then wrong (word "rue" (.bool true))
    else if d = 'f' then wrong (word "alse" (.bool false))
    else if d = '-' then wrong (readNumber true c.next)
    else if d.isDigit then wrong (readNumber false c)
    else if d = '"' then wrong ((readString c.next).map fun r => (.string r.1, r.2))
    else if d = '[' then c.fault (.wrongType .sequence wanted)
    else if d = '{' then c.fault (.wrongType .map wanted)
    else c.peekFault .noValue

/-- Skips blanks and looks at the next character; at the end of the text no value is left. -/
def atValue {α : Type} (c : Cursor) (read : Char → Cursor → Except Fault α) : Except Fault α :=
  match c.skip.rest with
  | [] => c.skip.peekFault .endInValue
  | d :: _ => read d c.skip

/-- A truth value. -/
def readBool : Reader Bool := fun c =>
  atValue c fun d here =>
    if d = 't' then (readWord "rue" here.next).map fun r => (true, r.2)
    else if d = 'f' then (readWord "alse" here.next).map fun r => (false, r.2)
    else refuse "a boolean" here

/-- A string. -/
def readText : Reader Text := fun c =>
  atValue c fun d here => if d = '"' then readString here.next else refuse "a string" here

/-- `null`, or what the reader takes. -/
def readOptional {α : Type} (read : Reader α) : Reader (Option α) := fun c =>
  match c.skip.rest with
  | 'n' :: _ => (readWord "ull" c.skip.next).map fun r => (none, r.2)
  | _ => (read c.skip).map fun r => (some r.1, r.2)

/-- Whether another element follows in a list; the cursor is then in front of it. -/
def moreElements (first : Bool) : Reader Bool := fun c =>
  let here := c.skip
  match here.rest with
  | [] => here.peekFault .endInList
  | d :: _ =>
    if d = ']' then .ok (false, here)
    else if first then .ok (true, here)
    else if d = ',' then
      let after := here.next.skip
      match after.rest with
      | [] => after.peekFault .endInValue
      | ']' :: _ => after.peekFault .trailingComma
      | _ => .ok (true, after)
    else here.peekFault .noCommaInList

/-- The end of a list all of whose elements are read. -/
def readListEnd : Reader Unit := fun c =>
  let here := c.skip
  match here.rest with
  | [] => here.peekFault .endInList
  | d :: _ =>
    if d = ']' then .ok ((), here.next)
    else if d = ',' then
      let after := here.next.skip
      match after.rest with
      | ']' :: _ => after.peekFault .trailingComma
      | _ => after.peekFault .trailingCharacters
    else here.peekFault .trailingCharacters

/-- At most `n` elements of a list whose opening bracket is read. -/
def readElements {α : Type} (read : Reader α) : Nat → Bool → Reader (List α)
  | 0, _, c => .ok ([], c)
  | n + 1, first, c => do
    let (more, c) ← moreElements first c
    if more then
      let (x, c) ← read c
      let (xs, c) ← readElements read n false c
      return (x :: xs, c)
    else return ([], c)

/-- A list of strings. Each element takes a character of the text, so the length of the text bounds their
number. -/
def readTexts : Reader (List Text) := fun c =>
  atValue c fun d here =>
    if d = '[' then do
      let inside := here.next
      let (texts, c) ← readElements readText (inside.rest.length + 1) true inside
      let ((), c) ← readListEnd c
      return (texts, c)
    else refuse "a sequence" here

/-- Whether another member follows in an object; the cursor is then in front of its key. -/
def moreMembers (first : Bool) : Reader Bool := fun c =>
  let here := c.skip
  match here.rest with
  | [] => here.peekFault .endInObject
  | d :: _ =>
    if d = '}' then .ok (false, here)
    else if first then if d = '"' then .ok (true, here) else here.peekFault .keyNotString
    else if d = ',' then
      let after := here.next.skip
      match after.rest with
      | [] => after.peekFault .endInValue
      | '"' :: _ => .ok (true, after)
      | '}' :: _ => after.peekFault .trailingComma
      | _ => after.peekFault .keyNotString
    else here.peekFault .noCommaInObject

/-- The colon after a key. -/
def readColon : Reader Unit := fun c =>
  let here := c.skip
  match here.rest with
  | [] => here.peekFault .endInObject
  | ':' :: _ => .ok ((), here.next)
  | _ => here.peekFault .noColon

/-- A fault that belongs to an object or a list as a whole: blanks after the last thing read count as
read, and so does the closing bracket if it comes next. -/
def wholeFault {α : Type} (close : Char) (cause : Cause) (c : Cursor) : Except Fault α :=
  match c.skip.rest with
  | d :: _ => if d = close then c.skip.next.fault cause else c.skip.fault cause
  | [] => c.skip.fault cause

/-- Nothing but blanks is left. -/
def readEnd : Reader Unit := fun c =>
  match c.skip.rest with
  | [] => .ok ((), c.skip)
  | _ => c.skip.peekFault .trailingCharacters

end GraphqlBuild.Json
