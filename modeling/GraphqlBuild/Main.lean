import GraphqlBuild.CommandLine.Run
/-!
# The program

Puts the files that a call may read into a workspace, runs the call and writes what comes of it. The files
that a check looks at are listed on the standard input, one path a line.

The tree that `collect_files` looks at is what these files make up.
-/

namespace GraphqlBuild.CommandLine

/-- What is at a path of the file system, if anything can be read there. -/
def entryAt (path : Text) : IO (Option FileTree) := do
  try
    let bytes ← IO.FS.readBinFile (String.ofList path)
    return some (.file ((String.fromUTF8? bytes).map String.toList))
  catch e =>
    match e with
    | .inappropriateType .. => return some (.dir [])
    | _ => return none

/-- The lines that are left of the input, without the line feeds. -/
partial def readLines (input : IO.FS.Stream) : IO (List Text) := do
  let line ← input.getLine
  if line.isEmpty then return []
  return (line.toList.filter (· != '\n')) :: (← readLines input)

/-- The paths of the files that a call may read. -/
def pathsOf (current : Path) (arguments : List Text) : IO (List Path) := do
  match Call.ofArguments arguments with
  | .ok (.run r) =>
    let listed ← match r.command with
      | .check _ _ => readLines (← IO.getStdin)
      | .transform _ _ | .print _ _ => pure []
    return r.reads current ++ listed
  | _ => return []

end GraphqlBuild.CommandLine

open GraphqlBuild CommandLine in
def main (args : List String) : IO UInt32 := do
  let start ← IO.monoMsNow
  let arguments := args.map String.toList
  let current := ((← IO.getEnv "PWD").getD "/").toList
  let mut workspace : Workspace := { current }
  for path in ← pathsOf current arguments do
    if let some entry ← entryAt path then workspace := workspace.put path entry
  let environment : Variables :=
    { noColor := (← IO.getEnv "NO_COLOR").map String.toList
      forceColor := (← IO.getEnv "CLICOLOR_FORCE").map String.toList }
  let outcome := run workspace environment arguments
  let seconds := Outcome.secondsText ((← IO.monoMsNow) - start)
  IO.print (String.ofList (outcome.output seconds))
  IO.eprint (String.ofList outcome.stderr)
  return UInt32.ofNat outcome.status.code
