import GraphqlBuild.Yaml.Reading
/-!
# Scalars

The three ways to write a scalar: plain, quoted, and as an indented block. A line break inside a plain or
quoted scalar is folded: one break becomes a space, and of several the first is dropped. Each loop takes at
least one character a round, so the length of the stream bounds its rounds.

They are the scalars of `parse_yaml`.
-/

namespace GraphqlBuild.Yaml

/-- How a scalar is written. -/
inductive Style
  | plain
  | quoted
  | literal
  | folded
deriving DecidableEq, Repr

/-! ## Blanks and line breaks inside a scalar -/

/-- Blanks and line breaks that may turn out to lie inside a scalar. -/
structure Gap where
  /-- The gap goes over a line break. -/
  broken : Bool := false
  /-- The blanks before the first line break. -/
  blanks : Text := []
  /-- The first line break. -/
  first : Text := []
  /-- The further line breaks. -/
  others : Text := []
deriving DecidableEq, Repr

namespace Gap

/-- What the gap stands for between two parts of a scalar. -/
def text (g : Gap) : Text :=
  if !g.broken then g.blanks
  else if g.first = ['\n'] then (if g.others.isEmpty then [' '] else g.others)
  else g.first ++ g.others

/-- The gap with one more blank or line break. -/
def push (g : Gap) (c : Char) : Gap :=
  if isBreak c then
    if g.broken then { g with others := g.others ++ [c] }
    else { g with broken := true, blanks := [], first := [c] }
  else if g.broken then g
  else { g with blanks := g.blanks ++ [c] }

end Gap

/-- The gap here, in at most `n` characters. A tab left of column `limit` in a later line is refused. -/
def readGap (limit : Nat) : Nat → Gap → Reading → Option (Gap × Reading)
  | 0, g, r => some (g, r)
  | n + 1, g, r =>
    match r.rest with
    | [] => some (g, r)
    | c :: _ =>
      if isBlank c || isBreak c then
        if g.broken && c == '\t' && r.column < limit then none
        else readGap limit n (g.push c) r.skip
      else some (g, r)

/-! ## Quoted scalars -/

/-- What an escape of one letter stands for. -/
def plainEscape? (c : Char) : Option Char :=
  match c with
  | '0' => some '\x00'
  | 'a' => some '\x07'
  | 'b' => some '\x08'
  | 't' | '\t' => some '\t'
  | 'n' => some '\n'
  | 'v' => some '\x0b'
  | 'f' => some '\x0c'
  | 'r' => some '\r'
  | 'e' => some '\x1b'
  | ' ' | '"' | '/' | '\\' => some c
  | 'N' => some '\u0085'
  | '_' => some '\u00a0'
  | 'L' => some '\u2028'
  | 'P' => some '\u2029'
  | _ => none

/-- The number of hexadecimal digits behind the letter of an escape. -/
def escapeDigits? (c : Char) : Option Nat :=
  match c with
  | 'x' => some 2
  | 'u' => some 4
  | 'U' => some 8
  | _ => none

/-- The value of a hexadecimal digit. -/
def hexDigit? (c : Char) : Option Nat :=
  if c.isDigit then some (c.toNat - '0'.toNat)
  else if 'a' ≤ c ∧ c ≤ 'f' then some (c.toNat - 'a'.toNat + 10)
  else if 'A' ≤ c ∧ c ≤ 'F' then some (c.toNat - 'A'.toNat + 10)
  else none

/-- The number that exactly `n` hexadecimal digits at the front spell, after `value`. -/
def hexNumber? : Nat → Nat → Text → Option Nat
  | 0, value, _ => some value
  | _ + 1, _, [] => none
  | n + 1, value, c :: t => do hexNumber? n (value * 16 + (← hexDigit? c)) t

/-- The character of a code point. -/
def charOf? (n : Nat) : Option Char :=
  if n < 0xd800 ∨ (0xdfff < n ∧ n < 0x110000) then some (Char.ofNat n) else none

/-- The escape whose backslash is at hand, and its length. -/
def escape? (r : Reading) : Option (Char × Nat) := do
  let c ← r.ahead? 1
  match escapeDigits? c with
  | none => return (← plainEscape? c, 2)
  | some n => return (← charOf? (← hexNumber? n 0 (r.rest.drop 2)), n + 2)

/-- The quotation mark of a style of quoting. -/
def quoteChar (double : Bool) : Char := if double then '"' else '\x27'

/-- The characters up to a blank, a line break, the closing mark or an escaped line break; whether it is
the last of these. -/
def readQuotedRun (double : Bool) : Nat → Reading → Option (Text × Reading × Bool)
  | 0, r => some ([], r, false)
  | n + 1, r =>
    match r.rest with
    | [] => some ([], r, false)
    | c :: _ =>
      let more (d : Char) (count : Nat) : Option (Text × Reading × Bool) :=
        (readQuotedRun double n (r.skipMany count)).map fun run => (d :: run.1, run.2)
      if isBlank c || isBreak c then some ([], r, false)
      else if c = quoteChar double then
        if !double && r.ahead? 1 == some c then more c 2 else some ([], r, false)
      else if double && c == '\\' then
        if (r.ahead? 1).any isBreak then some ([], r.skipMany 2, true)
        else do
          let (d, count) ← escape? r
          more d count
      else more c 1

/-- The rest of a quoted scalar, in at most `n` runs. -/
def readQuoted (double : Bool) : Nat → Reading → Option (Text × Reading)
  | 0, _ => none
  | n + 1, r =>
    if r.isDocumentMarker || r.rest.isEmpty then none
    else do
      let (run, r, escapedBreak) ← readQuotedRun double r.rest.length r
      if !escapedBreak && r.isAt (quoteChar double) then return (run, r.skip)
      let (gap, r) ← readGap 0 r.rest.length { broken := escapedBreak } r
      if r.isAt (quoteChar double) && escapedBreak then return (run ++ gap.text, r.skip)
      let (later, r) ← readQuoted double n r
      return (run ++ gap.text ++ later, r)

/-! ## Plain scalars -/

/-- The character opens or closes a flow collection or parts its entries. -/
def isFlowMark (c : Char) : Bool := c == ',' || c == '[' || c == ']' || c == '{' || c == '}'

/-- The characters of a plain scalar up to a gap or a mark. In a flow collection a colon in front of a
mark is refused. -/
def readPlainRun (flow : Bool) : Nat → Reading → Option (Text × Reading)
  | 0, r => some ([], r)
  | n + 1, r =>
    match r.rest with
    | [] => some ([], r)
    | c :: _ =>
      if isBlank c || isBreak c then some ([], r)
      else if flow && c == ':' && (r.ahead? 1).any fun d => isFlowMark d || d == '?' then none
      else if c == ':' && r.isGap 1 || flow && isFlowMark c then some ([], r)
      else (readPlainRun flow n r.skip).map fun run => (c :: run.1, run.2)

/-- The rest of a plain scalar behind a gap, in at most `n` runs, and whether the scalar is followed by a
line break. In a block it ends before a line that begins left of column `limit`. -/
def readPlain (flow : Bool) (limit : Nat) : Nat → Gap → Reading → Option (Text × Reading × Bool)
  | 0, g, r => some ([], r, g.broken)
  | n + 1, g, r =>
    if r.isDocumentMarker || r.isAt '#' then some ([], r, g.broken)
    else do
      let (run, after) ← readPlainRun flow r.rest.length r
      let inside := if run.isEmpty then [] else g.text ++ run
      let pending : Gap := if run.isEmpty then g else {}
      if after.rest.isEmpty || !after.isGap 0 then return (inside, after, pending.broken)
      let (gap, r) ← readGap limit after.rest.length pending after
      if !flow && r.column < limit then return (inside, r, gap.broken)
      let (later, r, broken) ← readPlain flow limit n gap r
      return (inside ++ later, r, broken)

/-! ## Block scalars -/

/-- What becomes of the line breaks at the end of a block. -/
inductive Chomping
  | strip
  | clip
  | keep
deriving DecidableEq, Repr

/-- The chomping and indentation indicators, in either order. -/
def readIndicators (r : Reading) : Option (Chomping × Option Nat × Reading) :=
  let chomping? (r : Reading) : Option Chomping :=
    if r.isAt '+' then some .keep else if r.isAt '-' then some .strip else none
  let digit? (r : Reading) : Option Nat :=
    (r.ahead? 0).bind fun c => if c.isDigit then some (c.toNat - '0'.toNat) else none
  let found : Chomping × Option Nat × Reading :=
    match chomping? r with
    | some chomping =>
      match digit? r.skip with
      | some d => (chomping, some d, r.skip.skip)
      | none => (chomping, none, r.skip)
    | none =>
      match digit? r with
      | some d =>
        match chomping? r.skip with
        | some chomping => (chomping, some d, r.skip.skip)
        | none => (.clip, some d, r.skip)
      | none => (.clip, none, r)
  if found.2.1 = some 0 then none else some found

/-- The line breaks in front of the next line of a block, and the deepest column met. Spaces left of
column `indent` are skipped, all of them as long as it is unknown (0). -/
def readBlockBreaks (indent : Nat) : Nat → Nat → Reading → Option (Text × Nat × Reading)
  | 0, deepest, r => some ([], deepest, r)
  | n + 1, deepest, r =>
    let spaces := (r.rest.takeWhile (· == ' ')).length
    let r := r.skipMany (if indent = 0 then spaces else min spaces (indent - r.column))
    let deepest := max deepest r.column
    match r.rest with
    | [] => some ([], deepest, r)
    | c :: _ =>
      if (indent = 0 ∨ r.column < indent) ∧ c = '\t' then none
      else if isBreak c then
        (readBlockBreaks indent n deepest r.skip).map fun found => (c :: found.1, found.2)
      else some ([], deepest, r)

/-- The lines of a block, in at most `n` rounds. `first` is the break that ended the line before, `others`
are the empty lines after it, and `spaced` says whether that line began with a blank. -/
def readBlockLines (literal : Bool) (chomping : Chomping) (indent : Nat) :
    Nat → (first others : Text) → (spaced : Bool) → Reading → Option (Text × Reading)
  | 0, _, _, _, r => some ([], r)
  | n + 1, first, others, spaced, r =>
    if r.column = indent ∧ !r.rest.isEmpty then
      let begins := (r.ahead? 0).any isBlank
      let joint :=
        if !literal && first == ['\n'] && !spaced && !begins then
          (if others.isEmpty then [' '] else []) ++ others
        else first ++ others
      let line := r.rest.takeWhile fun c => !isBreak c
      let r := r.skipMany line.length
      let ending := (r.rest.take 1)
      do
        let (breaks, _, r) ← readBlockBreaks indent r.rest.length 0 r.skip
        let (later, r) ← readBlockLines literal chomping indent n ending breaks begins r
        return (joint ++ line ++ later, r)
    else
      let kept := match chomping with
        | .strip => []
        | .clip => first
        | .keep => first ++ others
      some (kept, r)

/-- A block whose indicator is taken, inside a block collection indented by `parent` columns, one less at
the top. -/
def readBlock (literal : Bool) (parent : Int) (r : Reading) : Option (Text × Reading) := do
  let (chomping, explicit, r) ← readIndicators r
  let r ← r.endLine?
  let base : Nat := (max parent 0).toNat
  let given : Nat := match explicit with
    | none => 0
    | some d => base + d
  let (breaks, deepest, r) ← readBlockBreaks given (r.rest.length + 1) 0 r
  let indent : Nat := if given = 0 then max (max deepest (parent + 1).toNat) 1 else given
  readBlockLines literal chomping indent (r.rest.length + 1) [] breaks false r

end GraphqlBuild.Yaml
