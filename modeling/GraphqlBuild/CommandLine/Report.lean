import GraphqlBuild.Check
import GraphqlBuild.CommandLine.Outcome
import GraphqlBuild.CommandLine.Request
/-!
# Messages and reports

The lines that tell what went wrong, and the report on a check: in words, where each faulty file has its
lines and a summary ends the report, or as JSON, where the files that are in order do not appear.

| here | in the program |
| --- | --- |
| `readFailureLine` | the message of `read_source` |
| `shownPath` | `display_path` |
| `statusOf` | `exit_code` |
| `invalidLines`, `unreadableLines` | `print_human` |
| `humanReport`, `summary` | `print_human` and the summary in `check::run` |
| `reportJson` | `json_report` |
| `nothingFound` | `check::run` where `collect_files` finds nothing |
-/

namespace GraphqlBuild.CommandLine

/-! ## Lines -/

/-- A file cannot be read. -/
def readFailureLine (colored : Bool) (path : Path) (failure : ReadFailure) : Text :=
  paint colored .red "✗ Failed to read" ++ ' ' :: path ++ ": " ++ failure.message

/-- A cross and what went wrong. -/
def failureLine (colored : Bool) (message : Text) : Text :=
  paint colored .boldRed "✗" ++ ' ' :: paint colored .red message

/-- A syntax error at its place in a file. -/
def syntaxErrorLine (colored : Bool) (path : Path) (e : Graphql.SyntaxError) : Text :=
  path ++ ':' :: Text.ofNat e.line ++ ':' :: Text.ofNat e.column ++ ": " ++
    paint colored .boldRed "error:" ++ ' ' :: paint colored .red e.message

/-! ## The report on a check -/

/-- The path as a report names it: from the working directory if it lies below. -/
def shownPath (w : Workspace) (path : Path) : Path := (Path.below? w.current path).getD path

/-- The status after a check; syntax errors outweigh files that cannot be read. -/
def statusOf (files : List CheckedFile) : ExitStatus :=
  if files.any CheckedFile.isInvalid then .parseError
  else if files.any CheckedFile.isUnreadable then .ioError
  else .success

/-- The lines about a file with a syntax error. -/
def invalidLines (w : Workspace) (colored : Bool) (f : CheckedFile) : Text :=
  match f.verdict with
  | .invalid e => '\n' :: syntaxErrorLine colored (shownPath w f.path) e ++ ['\n']
  | _ => []

/-- The lines about a file that cannot be read. -/
def unreadableLines (w : Workspace) (colored : Bool) (f : CheckedFile) : Text :=
  match f.verdict with
  | .unreadable failure => '\n' :: readFailureLine colored (shownPath w f.path) failure ++ ['\n']
  | _ => []

/-- The last lines of a report, up to the time. -/
def summary (colored : Bool) (files : List CheckedFile) : Text :=
  let total := Text.ofNat files.length
  let faulty := (files.filter CheckedFile.isFaulty).length
  let line :=
    if faulty = 0 then paint colored .boldGreen ("✓ All " ++ total ++ " GraphQL file(s) parsed")
    else paint colored .red ("✗ Found " ++ Text.ofNat faulty ++ " error(s) in " ++ total ++ " file(s)")
  '\n' :: line ++ "\n  " ++ paint colored .dimmed "⏱" ++ " total: "

/-- The report in words; a quiet one holds only what is wrong. -/
def humanReport (w : Workspace) (colored quiet : Bool) (files : List CheckedFile) : Outcome :=
  { status := statusOf files
    stdout := files.flatMap (invalidLines w colored) ++ if quiet then [] else summary colored files
    stderr := files.flatMap (unreadableLines w colored)
    timed := !quiet }

/-- The JSON form of a verdict that is not good. -/
def errorJson? : Verdict → Option JsonValue
  | .valid => none
  | .invalid e => some <| .object [
      ("location", .object [("column", .integer e.column), ("line", .integer e.line)]),
      ("message", .string e.message), ("severity", .string "error")]
  | .unreadable failure => some <| .object [
      ("message", .string failure.message), ("severity", .string "error")]

/-- The JSON form of the report on files. -/
def reportJson (w : Workspace) (files : List CheckedFile) : JsonValue :=
  let faulty := files.filterMap fun f => (errorJson? f.verdict).map fun e =>
    JsonValue.object [("errors", .array [e]), ("file", .string (shownPath w f.path))]
  .object [("files", .array faulty),
    ("stats", .object [("total_errors", .integer faulty.length), ("total_files", .integer files.length)]),
    ("success", .bool faulty.isEmpty)]

/-- The report on files. -/
def report (w : Workspace) (colored quiet : Bool) (files : List CheckedFile) : ReportFormat → Outcome
  | .human => humanReport w colored quiet files
  | .json => { status := statusOf files, stdout := (reportJson w files).pretty ++ ['\n'] }

/-- There is nothing to check. -/
def nothingFound (colored : Bool) : ReportFormat → Outcome
  | .human => .failed .configError (failureLine colored "No GraphQL files found.")
  | .json => .failed .configError
      (JsonValue.object [("error", .string "No GraphQL files found")]).compact

end GraphqlBuild.CommandLine
