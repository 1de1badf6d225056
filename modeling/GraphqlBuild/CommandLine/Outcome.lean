import GraphqlBuild.Text.Basic
/-!
# Outcomes of a command

What a command writes to its two streams and the status it ends with. A report may end with the time that
the command took, which only the caller knows: `Outcome.output` puts it in.

| here | in the program |
| --- | --- |
| `paint` | the colours of the messages |
| `ExitStatus`, its `code` | `ExitCode`, `ExitCode::code` |
| `Outcome.output`, `secondsText` | the last line of `check::run` |
-/

namespace GraphqlBuild.CommandLine

/-! ## Colours -/

/-- How a text stands out. -/
inductive Emphasis
  | red
  | boldRed
  | boldGreen
  | dimmed
deriving DecidableEq, Repr

/-- The attributes that a terminal is asked for. -/
def Emphasis.attributes : Emphasis → Text
  | red => "31"
  | boldRed => "1;31"
  | boldGreen => "1;32"
  | dimmed => "2"

/-- The sequence that ends all attributes. -/
def resetSequence : Text := "\x1b[0m"

/-- The text as it stands out, where colours are wanted. A reset inside it begins the emphasis anew. -/
def paint (colored : Bool) (emphasis : Emphasis) (t : Text) : Text :=
  if colored then
    let opening := "\x1b[".toList ++ emphasis.attributes ++ ['m']
    opening ++ t.replace resetSequence (resetSequence ++ opening) ++ resetSequence
  else t

/-! ## Status and streams -/

/-- How a command ends. -/
inductive ExitStatus
  | success
  /-- A GraphQL file has a syntax error. -/
  | parseError
  /-- The configuration cannot be used, or there is nothing to do. -/
  | configError
  /-- A file cannot be read. -/
  | ioError
  /-- A pattern is malformed. -/
  | patternError
  /-- The arguments make no command. -/
  | usageError
deriving DecidableEq, Repr

/-- The number that the process ends with. -/
def ExitStatus.code : ExitStatus → Nat
  | success => 0
  | parseError => 1
  | configError => 2
  | ioError => 4
  | patternError => 1
  | usageError => 2

/-- What a command leaves behind. -/
structure Outcome where
  status : ExitStatus := .success
  stdout : Text := []
  stderr : Text := []
  /-- The standard output goes on with the time that the command took. -/
  timed : Bool := false
deriving DecidableEq, Repr

namespace Outcome

/-- A time in milliseconds as seconds with two places. -/
def secondsText (milliseconds : Nat) : Text :=
  let hundredths := (milliseconds + 5) / 10
  let places := Text.ofNat (hundredths % 100)
  Text.ofNat (hundredths / 100) ++ '.' :: List.replicate (2 - places.length) '0' ++ places

/-- The standard output of a command that took so many seconds. -/
def output (o : Outcome) (seconds : Text) : Text :=
  if o.timed then o.stdout ++ seconds ++ ['s', '\n'] else o.stdout

/-- The command ends with this status and a line on the error stream. -/
def failed (status : ExitStatus) (line : Text) : Outcome := { status, stderr := line ++ ['\n'] }

end Outcome

end GraphqlBuild.CommandLine
