import GraphqlBuild.Graphql.Token
/-!
# The value of a string token

`unquote` decodes the escapes of a quoted string. A block string loses its common indentation and the blank
lines at its two ends; of the backslashes in it only the one in front of three quotation marks means
something.

`stringValue` is what `ParsedDocument::ast` holds of a string.
-/

namespace GraphqlBuild.Graphql

/-! ## Quoted strings -/

/-- What an escape of one letter stands for. -/
def escaped (c : Char) : Char :=
  if c = 'b' then '\x08'
  else if c = 'f' then '\x0c'
  else if c = 'n' then '\n'
  else if c = 'r' then '\r'
  else if c = 't' then '\t'
  else c

/-- The number that hexadecimal digits spell. -/
def hexNumber (digits : Text) : Nat :=
  digits.foldl (fun n c => n * 16 + (digitValue? c).getD 0) 0

/-- The code point of the escape after a backslash and `u`, and how many characters the escape has. -/
def unicodeEscape : Text → Nat × Nat
  | '{' :: t =>
    let digits := t.takeWhile (· != '}')
    (hexNumber digits, digits.length + 2)
  | t =>
    let first := hexNumber (t.take 4)
    match t.drop 4 with
    | '\\' :: 'u' :: rest =>
      if isLeadingSurrogate first then
        ((first - 0xd800) * 0x400 + (hexNumber (rest.take 4) - 0xdc00) + 0x10000, 10)
      else (first, 4)
    | _ => (first, 4)

/-- The characters that the inside of a quoted string stands for, its first `passed` ones already read. -/
def unescapeFrom (passed : Nat) : Text → Text
  | [] => []
  | c :: t =>
    match passed with
    | n + 1 => unescapeFrom n t
    | 0 =>
      if c = '\\' then
        match t with
        | [] => []
        | 'u' :: rest =>
          let (code, count) := unicodeEscape rest
          Char.ofNat code :: unescapeFrom (count + 1) t
        | e :: _ => escaped e :: unescapeFrom 1 t
      else c :: unescapeFrom 0 t

/-! ## Block strings -/

/-- The lines of a text; a carriage return and a line feed together end one line. -/
def splitLines : Text → List Text
  | [] => [[]]
  | '\r' :: '\n' :: t => [] :: splitLines t
  | c :: t =>
    if endsLine c then [] :: splitLines t
    else match splitLines t with
      | [] => [[c]]
      | line :: lines => (c :: line) :: lines

/-- The character indents a line. -/
def isIndent (c : Char) : Bool := c == ' ' || c == '\t'

/-- The line holds nothing but indentation. -/
def isBlankLine (line : Text) : Bool := line.all isIndent

/-- The number of characters that indent the line. -/
def indentOf (line : Text) : Nat := (line.takeWhile isIndent).length

/-- The least indentation of the lines that are not blank; 0 if all are. -/
def commonIndent (lines : List Text) : Nat :=
  (((lines.filter fun l => !isBlankLine l).map indentOf).min?).getD 0

/-- The lines without the blank ones at both ends. -/
def dropBlankEnds (lines : List Text) : List Text :=
  ((lines.dropWhile isBlankLine).reverse.dropWhile isBlankLine).reverse

/-- The lines without the indentation that all but the first share and without blank ends. -/
def dedent : List Text → List Text
  | [] => []
  | first :: rest => dropBlankEnds (first :: rest.map fun l => l.drop (commonIndent rest))

/-- Every backslash in front of three quotation marks is dropped. -/
def unescapeBlock : Text → Text
  | [] => []
  | '\\' :: '"' :: '"' :: '"' :: t => '"' :: '"' :: '"' :: unescapeBlock t
  | c :: t => c :: unescapeBlock t

/-! ## Both -/

/-- The text that a string token stands for. -/
def stringValue : Text → Text
  | '"' :: '"' :: '"' :: t =>
    unescapeBlock (Text.join ['\n'] (dedent (splitLines (t.take (t.length - 3)))))
  | t => unescapeFrom 0 ((t.drop 1).dropLast)

end GraphqlBuild.Graphql
