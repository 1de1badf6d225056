import GraphqlBuild.FileTree.Failure
import GraphqlBuild.Path
/-!
# File trees

The files that a command can see: `FileTree` holds them, `Workspace` adds the directory that relative paths
start from. A path is followed piece by piece (`Place.step`): each step starts in a directory, `..` leads to
where the walk came from, and an idle piece stays. So a final `/` asks for a directory.

| here | in the program |
| --- | --- |
| `Workspace.read` | how `read_source`, `load_config` and `check_file` read a file |
| `Workspace.hasFile` | the test for a file in `find_config` and `collect_files` |
-/

namespace GraphqlBuild

/-- A file or a directory. -/
inductive FileTree
  /-- The text of a file; `none` if its bytes are not UTF-8. -/
  | file (content : Option Text)
  /-- The entries of a directory, in ascending order of their names. -/
  | dir (entries : List (Text × FileTree))
deriving Repr, Inhabited

namespace FileTree

/-- It is a directory. -/
def isDir : FileTree → Bool
  | dir _ => true
  | file _ => false

/-- The entries of a directory. -/
def entries : FileTree → List (Text × FileTree)
  | dir es => es
  | file _ => []

/-- The text of a file, or why it cannot be read. -/
def text : FileTree → Except ReadFailure Text
  | file (some t) => .ok t
  | file none => .error .notText
  | dir _ => .error .isDirectory

/-- The entries with one of that name, in place of the old one if there was one. -/
def putEntry (name : Text) (entry : FileTree) : List (Text × FileTree) → List (Text × FileTree)
  | [] => [(name, entry)]
  | e :: es =>
    if e.1 = name then (name, entry) :: es
    else if e.1 < name then e :: putEntry name entry es
    else (name, entry) :: e :: es

/-- What is there once `new` is put in the place of `old`; making a directory that is there changes
nothing. -/
def replacing : (new old : FileTree) → FileTree
  | dir [], dir es => dir es
  | new, _ => new

/-- The tree with an entry at the end of a path of names; directories on the way are made. -/
def insert : List Text → FileTree → FileTree → FileTree
  | [], entry, tree => entry.replacing tree
  | name :: names, entry, tree =>
    let old := (tree.entries.lookup name).getD (dir [])
    dir (putEntry name (insert names entry old) tree.entries)

end FileTree

/-- A file or directory, and how a walk came to it. -/
structure Place where
  /-- The path of the walk. -/
  path : Path
  tree : FileTree
  /-- The directories around it, the nearest first. -/
  above : List FileTree := []
deriving Repr

namespace Place

/-- The place that one piece of a path leads to. -/
def step (p : Place) (piece : Text) : Except ReadFailure Place :=
  match p.tree with
  | .file _ => .error .notDirectory
  | .dir es =>
    let path := Path.join p.path piece
    if Path.isIdle piece then .ok { p with path }
    else if piece = ['.', '.'] then
      match p.above with
      | [] => .ok { p with path }
      | parent :: above => .ok ⟨path, parent, above⟩
    else match es.lookup piece with
      | none => .error .notFound
      | some entry => .ok ⟨path, entry, p.tree :: p.above⟩

end Place

/-- A file tree and the directory in it that a command is run in. -/
structure Workspace where
  root : FileTree := .dir []
  /-- An absolute path. -/
  current : Path := ['/']
deriving Repr

namespace Workspace

/-- The root directory. -/
def top (w : Workspace) : Place := ⟨['/'], w.root, []⟩

/-- The place at the path. -/
def at? (w : Workspace) (p : Path) : Except ReadFailure Place :=
  if p.isEmpty then .error .notFound
  else (Path.pieces (Path.join w.current p)).tail.foldlM Place.step w.top

/-- The text of the file at the path. -/
def read (w : Workspace) (p : Path) : Except ReadFailure Text := do (← w.at? p).tree.text

/-- The names that lead from the root to the path, a `..` taking back the name before it. -/
def namesTo (w : Workspace) (p : Path) : List Text :=
  (Path.pieces (Path.join w.current p)).foldl
    (fun names piece =>
      if Path.isIdle piece then names
      else if piece = ['.', '.'] then names.dropLast
      else names ++ [piece])
    []

/-- The workspace with an entry at the path. -/
def put (w : Workspace) (p : Path) (entry : FileTree) : Workspace :=
  { w with root := FileTree.insert (w.namesTo p) entry w.root }

/-- A regular file is at the path. -/
def hasFile (w : Workspace) (p : Path) : Bool := (w.at? p).toOption.any fun place => !place.tree.isDir

end Workspace

end GraphqlBuild
