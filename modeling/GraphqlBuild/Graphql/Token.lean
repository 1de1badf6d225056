import GraphqlBuild.Text.Lines
/-!
# Tokens of the GraphQL language

The lexer is an automaton that reads one character at a time: `step` says whether a character belongs to
the token at hand, `begin` how a token starts with it, and `finish` what a token is that ends where it
stands. A faulty token is reported at the offset where it began, and reading goes on after it.

| here | in the program |
| --- | --- |
| `lexemes` | the tokens and errors of the lexer in the run of `parse_errors` |
| `LexicalFault.message` | the message of a `ParseError` from the lexer |
-/

namespace GraphqlBuild.Graphql

/-- The kinds of tokens. -/
inductive Kind
  | blank
  | comment
  | comma
  /-- One of the marks `! $ & ( ) : = @ [ ] { | }`. -/
  | mark (c : Char)
  | spread
  | name
  | int
  | float
  | string
  /-- The end of the text. -/
  | stop
deriving DecidableEq, Repr

/-- The grammar does not see tokens of this kind. -/
def Kind.isIgnored : Kind → Bool
  | blank | comment | comma => true
  | _ => false

/-- A token, its text and the offset of its first byte. -/
structure Token where
  kind : Kind
  text : Text
  offset : Nat
deriving DecidableEq, Repr

/-- What is wrong inside a string. -/
inductive Flaw
  | lineTerminator
  | escapedCharacter
  | incompleteUnicode
  | badUnicode
  | notScalar
  | unpairedSurrogate
deriving DecidableEq, Repr

/-- The wording of a flaw. -/
def Flaw.message : Flaw → Text
  | lineTerminator => "unexpected line terminator"
  | escapedCharacter => "unexpected escaped character"
  | incompleteUnicode => "incomplete unicode escape sequence"
  | badUnicode => "invalid unicode escape sequence"
  | notScalar => "unicode escape sequence must specify a Unicode scalar value"
  | unpairedSurrogate => "unpaired surrogate in unicode escape sequence"

/-- Why characters form no token. -/
inductive LexicalFault
  | unexpected (c : Char)
  | unterminatedSpread
  | afterMinus (c : Char)
  | leadingZero
  | intSuffix (c : Char)
  | floatSuffix (c : Char)
  | noFraction (c : Char)
  | noExponent (c : Char)
  | noExponentDigit (c : Char)
  | endInFloat
  | endAfterQuote
  | unterminatedString
  | string (flaw : Flaw)
deriving DecidableEq, Repr

/-- The wording of a lexical fault. -/
def LexicalFault.message : LexicalFault → Text
  | unexpected c => "Unexpected character \"" ++ c :: "\"".toList
  | unterminatedSpread => "Unterminated spread operator"
  | afterMinus c => "Unexpected character `" ++ c :: "`".toList
  | leadingZero => "Numbers must not have non-significant leading zeroes"
  | intSuffix c => "Unexpected character `" ++ c :: "` as integer suffix".toList
  | floatSuffix c => "Unexpected character `" ++ c :: "` as float suffix".toList
  | noFraction c => "Unexpected character `" ++ c :: "`, expected fractional digit".toList
  | noExponent c => "Unexpected character `" ++ c :: "`, expected exponent digit or sign".toList
  | noExponentDigit c => "Unexpected character `" ++ c :: "`, expected exponent digit".toList
  | endInFloat => "Unexpected EOF in float value"
  | endAfterQuote => "unexpected end of data while lexing string value"
  | unterminatedString => "unterminated string value"
  | string flaw => flaw.message

/-! ## Character classes -/

/-- The character is ignored between tokens. -/
def isIgnoredBlank (c : Char) : Bool :=
  c == ' ' || c == '\t' || c == '\n' || c == '\r' || c == '\ufeff'

/-- The character ends a line. -/
def endsLine (c : Char) : Bool := c == '\n' || c == '\r'

/-- The character can begin a name. -/
def startsName (c : Char) : Bool := c.isAlpha || c == '_'

/-- The character can stand inside a name. -/
def continuesName (c : Char) : Bool := c.isAlphanum || c == '_'

/-- The characters that are tokens by themselves. -/
def marks : Text := "!$&():=@[]\x7b|\x7d"

/-- The value of a hexadecimal digit. -/
def digitValue? (c : Char) : Option Nat :=
  if c.isDigit then some (c.toNat - '0'.toNat)
  else if 'a' ≤ c ∧ c ≤ 'f' then some (c.toNat - 'a'.toNat + 10)
  else if 'A' ≤ c ∧ c ≤ 'F' then some (c.toNat - 'A'.toNat + 10)
  else none

/-- The number is the first half of a surrogate pair. -/
def isLeadingSurrogate (n : Nat) : Bool := 0xd800 ≤ n && n ≤ 0xdbff

/-- The number is the second half of a surrogate pair. -/
def isTrailingSurrogate (n : Nat) : Bool := 0xdc00 ≤ n && n ≤ 0xdfff

/-- The number is the code point of a character. -/
def isScalar (n : Nat) : Bool := n < 0xd800 || (0xdfff < n && n < 0x110000)

/-! ## The automaton -/

/-- Where the lexer stands inside a token. The last flaw of a string is kept until the string ends. -/
inductive Mode
  | ready
  | blank
  | comment
  | name
  | dot
  | dots
  | minus
  | zero
  | int
  | point
  | fraction
  | exponent
  | exponentSign
  | exponentDigits
  /-- After one quotation mark. -/
  | quote
  /-- After two quotation marks. -/
  | quotes
  | chars (flaw : Option Flaw)
  | escape (flaw : Option Flaw)
  /-- After a backslash and `u`. -/
  | unicode (flaw : Option Flaw)
  /-- After `count` of four hexadecimal digits; `leading` is the first half of a pair. -/
  | unicodeDigits (flaw : Option Flaw) (leading : Option Nat) (count value : Nat)
  /-- After the first half of a surrogate pair. -/
  | pairBackslash (flaw : Option Flaw) (leading : Nat)
  | pairLetter (flaw : Option Flaw) (leading : Nat)
  /-- Inside the braces of an escape, after `count` digits. -/
  | scalar (flaw : Option Flaw) (count value : Nat)
  | block
  /-- In a block string, after one or two of the quotation marks that end it. -/
  | blockQuote
  | blockQuotes
  /-- In a block string, after a backslash and up to two quotation marks. -/
  | blockEscape
  | blockEscapeQuote
  | blockEscapeQuotes
deriving DecidableEq, Repr

/-- What a finished token is. -/
abbrev Outcome := Except LexicalFault Kind

/-- What a character does that belongs to the token at hand. -/
inductive Step
  /-- The token goes on. -/
  | more (mode : Mode)
  /-- The token ends with the character. -/
  | last (outcome : Outcome)

/-- How a token starts with the character. -/
def begin (c : Char) : Step :=
  if isIgnoredBlank c then .more .blank
  else if c = '#' then .more .comment
  else if c = ',' then .last (.ok .comma)
  else if marks.contains c then .last (.ok (.mark c))
  else if startsName c then .more .name
  else if c = '.' then .more .dot
  else if c = '-' then .more .minus
  else if c = '0' then .more .zero
  else if c.isDigit then .more .int
  else if c = '"' then .more .quote
  else .last (.error (.unexpected c))

/-- A string that ends with its last flaw, if it has one. -/
def stringOutcome : Option Flaw → Outcome
  | none => .ok .string
  | some flaw => .error (.string flaw)

/-- Inside a quoted string. -/
def inChars (flaw : Option Flaw) (c : Char) : Step :=
  if c = '"' then .last (stringOutcome flaw)
  else if endsLine c then .more (.chars (some .lineTerminator))
  else if c = '\\' then .more (.escape flaw)
  else .more (.chars flaw)

/-- Where the lexer stands once four hexadecimal digits are read. -/
def afterUnicode (flaw : Option Flaw) (leading : Option Nat) (value : Nat) : Mode :=
  match leading with
  | some _ => if isTrailingSurrogate value then .chars flaw else .chars (some .unpairedSurrogate)
  | none =>
    if isLeadingSurrogate value then .pairBackslash flaw value
    else if isTrailingSurrogate value then .chars (some .unpairedSurrogate)
    else .chars flaw

/-- Inside an escape of four hexadecimal digits. -/
def inUnicode (flaw : Option Flaw) (leading : Option Nat) (count value : Nat) (c : Char) : Step :=
  match digitValue? c with
  | some d =>
    let value := value * 16 + d
    if count = 3 then .more (afterUnicode flaw leading value)
    else .more (.unicodeDigits flaw leading (count + 1) value)
  | none =>
    if c = '"' then .last (.error (.string .incompleteUnicode)) else .more (.chars (some .badUnicode))

/-- Inside the braces of an escape. -/
def inScalar (flaw : Option Flaw) (count value : Nat) (c : Char) : Step :=
  match digitValue? c with
  | some d => .more (.scalar flaw (count + 1) (value * 16 + d))
  | none =>
    if c = '}' then
      .more (.chars (if count = 0 ∨ !isScalar value then some .notScalar else flaw))
    else if c = '"' then .last (.error (.string .incompleteUnicode))
    else .more (.chars (some .badUnicode))

/-- Inside a block string, after nothing special. -/
def inBlock (c : Char) : Step :=
  if c = '"' then .more .blockQuote
  else if c = '\\' then .more .blockEscape
  else .more .block

/-- What the character does inside a token; `none` if the token ends before it. -/
def step (mode : Mode) (c : Char) : Option Step :=
  match mode with
  | .ready => some (begin c)
  | .blank => if isIgnoredBlank c then some (.more .blank) else none
  | .comment => if endsLine c then none else some (.more .comment)
  | .name => if continuesName c then some (.more .name) else none
  | .dot => if c = '.' then some (.more .dots) else some (.last (.error .unterminatedSpread))
  | .dots => if c = '.' then some (.last (.ok .spread)) else none
  | .minus =>
    if c = '0' then some (.more .zero)
    else if c.isDigit then some (.more .int)
    else some (.last (.error (.afterMinus c)))
  | .zero =>
    if c = '.' then some (.more .point)
    else if c = 'e' ∨ c = 'E' then some (.more .exponent)
    else if c.isDigit then some (.last (.error .leadingZero))
    else if startsName c then some (.last (.error (.intSuffix c)))
    else none
  | .int =>
    if c.isDigit then some (.more .int)
    else if c = '.' then some (.more .point)
    else if c = 'e' ∨ c = 'E' then some (.more .exponent)
    else if startsName c then some (.last (.error (.intSuffix c)))
    else none
  | .point =>
    if c.isDigit then some (.more .fraction) else some (.last (.error (.noFraction c)))
  | .fraction =>
    if c.isDigit then some (.more .fraction)
    else if c = 'e' ∨ c = 'E' then some (.more .exponent)
    else if c = '.' ∨ startsName c then some (.last (.error (.floatSuffix c)))
    else none
  | .exponent =>
    if c.isDigit then some (.more .exponentDigits)
    else if c = '+' ∨ c = '-' then some (.more .exponentSign)
    else some (.last (.error (.noExponent c)))
  | .exponentSign =>
    if c.isDigit then some (.more .exponentDigits)
    else some (.last (.error (.noExponentDigit c)))
  | .exponentDigits =>
    if c.isDigit then some (.more .exponentDigits)
    else if c = '.' ∨ startsName c then some (.last (.error (.floatSuffix c)))
    else none
  | .quote =>
    if c = '"' then some (.more .quotes)
    else if c = '\\' then some (.more (.escape none))
    else some (.more (.chars none))
  | .quotes => if c = '"' then some (.more .block) else none
  | .chars flaw => some (inChars flaw c)
  | .escape flaw =>
    if ("\"\\/bfnrt" : Text).contains c then some (.more (.chars flaw))
    else if c = 'u' then some (.more (.unicode flaw))
    else some (.more (.chars (some .escapedCharacter)))
  | .unicode flaw =>
    if c = '{' then some (.more (.scalar flaw 0 0)) else some (inUnicode flaw none 0 0 c)
  | .unicodeDigits flaw leading count value => some (inUnicode flaw leading count value c)
  | .pairBackslash flaw leading =>
    if c = '\\' then some (.more (.pairLetter flaw leading))
    else if c = '"' then some (.last (.error (.string .unpairedSurrogate)))
    else some (.more (.chars (some .unpairedSurrogate)))
  | .pairLetter flaw leading =>
    if c = 'u' then some (.more (.unicodeDigits flaw (some leading) 0 0))
    else some (.more (.chars (some .unpairedSurrogate)))
  | .scalar flaw count value => some (inScalar flaw count value c)
  | .block => some (inBlock c)
  | .blockQuote => if c = '"' then some (.more .blockQuotes) else some (inBlock c)
  | .blockQuotes => if c = '"' then some (.last (.ok .string)) else some (inBlock c)
  | .blockEscape =>
    if c = '\\' then some (.more .blockEscape)
    else if c = '"' then some (.more .blockEscapeQuote)
    else some (.more .block)
  | .blockEscapeQuote => if c = '"' then some (.more .blockEscapeQuotes) else some (inBlock c)
  | .blockEscapeQuotes => if c = '"' then some (.more .block) else some (inBlock c)

/-- What the token at hand is if it ends here; `none` between tokens. -/
def finish : Mode → Option Outcome
  | .ready => none
  | .blank => some (.ok .blank)
  | .comment => some (.ok .comment)
  | .name => some (.ok .name)
  | .dot | .dots => some (.error .unterminatedSpread)
  | .minus => some (.error (.unexpected '-'))
  | .zero | .int => some (.ok .int)
  | .point | .exponent | .exponentSign => some (.error .endInFloat)
  | .fraction | .exponentDigits => some (.ok .float)
  | .quote => some (.error .endAfterQuote)
  | .quotes => some (.ok .string)
  | _ => some (.error .unterminatedString)

/-- A token, or the fault in place of one and the offset where it began. -/
inductive Lexeme
  | token (t : Token)
  | fault (cause : LexicalFault) (offset : Nat)
deriving DecidableEq, Repr

/-- The lexeme of an outcome. -/
def Lexeme.ofOutcome (text : Text) (offset : Nat) : Outcome → Lexeme
  | .ok kind => .token ⟨kind, text, offset⟩
  | .error cause => .fault cause offset

/-- The lexer between two characters: the mode, where the token at hand began, its characters, last first,
and the offset reached. -/
structure Lexer where
  mode : Mode := .ready
  start : Nat := 0
  taken : Text := []
  offset : Nat := 0
deriving DecidableEq, Repr

namespace Lexer

/-- The lexer between two tokens. -/
def between (offset : Nat) : Lexer := { start := offset, offset }

/-- The lexeme that ends where the lexer stands, if any. -/
def flush (lexer : Lexer) : List Lexeme :=
  match finish lexer.mode with
  | none => []
  | some outcome => [.ofOutcome lexer.taken.reverse lexer.start outcome]

/-- Takes a character into the token at hand. -/
def take (lexer : Lexer) (c : Char) : Step → List Lexeme × Lexer
  | .more mode =>
    ([], { lexer with mode, taken := c :: lexer.taken, offset := lexer.offset + c.utf8Size })
  | .last outcome =>
    ([.ofOutcome (c :: lexer.taken).reverse lexer.start outcome],
      between (lexer.offset + c.utf8Size))

/-- Reads a character. -/
def advance (lexer : Lexer) (c : Char) : List Lexeme × Lexer :=
  match step lexer.mode c with
  | some s => lexer.take c s
  | none =>
    let (lexemes, next) := (between lexer.offset).take c (begin c)
    (lexer.flush ++ lexemes, next)

/-- Reads a text to its end. -/
def run (lexer : Lexer) : Text → List Lexeme
  | [] => lexer.flush ++ [.token ⟨.stop, "EOF", lexer.offset⟩]
  | c :: t =>
    let (lexemes, next) := lexer.advance c
    lexemes ++ run next t

end Lexer

/-- The lexemes of a text; the last one is its end. -/
def lexemes (t : Text) : List Lexeme := Lexer.run {} t

/-- The tokens among the lexemes. -/
def tokensOf (ls : List Lexeme) : List Token :=
  ls.filterMap fun
    | .token t => some t
    | .fault _ _ => none

/-- The faults among the lexemes. -/
def faultsOf (ls : List Lexeme) : List (LexicalFault × Nat) :=
  ls.filterMap fun
    | .token _ => none
    | .fault cause offset => some (cause, offset)

end GraphqlBuild.Graphql
