import GraphqlBuild.FileTree.Glob
import GraphqlBuild.Pipeline
/-!
# Checking files

Which files are checked and what comes of it. Without patterns these are all GraphQL files below the working
directory, hidden and build directories left out; with patterns, the GraphQL files that match one. A file is
read as the build would read it and always validated.

| here | in the program |
| --- | --- |
| `isGraphqlFile` | the test `is_graphql` in `collect_files` |
| `filesBelow`, `filesMatching` | the walk and one round over the patterns in `collect_files` |
| `collectFiles` | `collect_files` |
| `Verdict`, `CheckedFile` | `Outcome`, `CheckedFile` |
| `checkFile` | `check_file` |
-/

namespace GraphqlBuild

/-! ## Which files -/

namespace Pipeline

/-- A GraphQL file is at the place. -/
def isGraphqlFile (p : Pipeline) (place : Place) : Bool :=
  !place.tree.isDir && p.route place.path == some .wholeFile

/-- The GraphQL files below the working directory. -/
def filesBelow (p : Pipeline) (w : Workspace) : List Path :=
  match w.at? w.current with
  | .error _ => []
  | .ok place =>
    (({ place with path := w.current } : Place).below holdsSources).filter p.isGraphqlFile
      |>.map Place.path

/-- The GraphQL files that a pattern matches, relative to the working directory. -/
def filesMatching (p : Pipeline) (w : Workspace) (pattern : Text) :
    Except Glob.PatternError (List Path) := do
  let glob ← Glob.parse (Path.join w.current pattern)
  return ((glob.expand w).filter p.isGraphqlFile).map Place.path

/-- The files to check, in the order of paths and each path once. -/
def collectFiles (p : Pipeline) (w : Workspace) (patterns : List Text) :
    Except Glob.PatternError (List Path) := do
  if patterns.isEmpty then return Path.ordered (p.filesBelow w)
  return Path.ordered (← patterns.mapM (p.filesMatching w)).flatten

end Pipeline

/-! ## What comes of it -/

/-- What checking a file says about it. -/
inductive Verdict
  | valid
  | invalid (error : Graphql.SyntaxError)
  | unreadable (failure : ReadFailure)
deriving DecidableEq, Repr

/-- A file and its verdict. -/
structure CheckedFile where
  path : Path
  verdict : Verdict
deriving DecidableEq, Repr

namespace Pipeline

/-- The verdict on the text of a file, whether or not the options ask for validation. -/
def checkText (p : Pipeline) (code : Text) : Verdict :=
  match Graphql.validate (p.normalizeFile code) with
  | .ok () => .valid
  | .error e => .invalid e

/-- The verdict on the file at a path. -/
def checkFile (p : Pipeline) (w : Workspace) (path : Path) : CheckedFile :=
  match w.read path with
  | .ok code => ⟨path, p.checkText code⟩
  | .error failure => ⟨path, .unreadable failure⟩

end Pipeline

namespace CheckedFile

/-- Something is wrong with the file. -/
def isFaulty (f : CheckedFile) : Bool := f.verdict != .valid

/-- The file has a syntax error. -/
def isInvalid (f : CheckedFile) : Bool :=
  match f.verdict with
  | .invalid _ => true
  | _ => false

/-- The file cannot be read. -/
def isUnreadable (f : CheckedFile) : Bool :=
  match f.verdict with
  | .unreadable _ => true
  | _ => false

end CheckedFile

end GraphqlBuild
