import GraphqlBuild.FileTree.Basic
/-!
# Walks

All places below a directory, each directory before what it holds (`Place.below`). A walk may leave out
directories by their names; files it never leaves out.

| here | in the program |
| --- | --- |
| `Place.below` | `WalkDir` in `collect_files` |
| `buildDirectories`, `holdsSources` | `SKIPPED_DIRS`, `is_skipped_dir` |
-/

namespace GraphqlBuild

mutual

/-- The places below a tree that stands at the path, save the directories whose names `enter` refuses. -/
def FileTree.placesBelow (enter : Text → Bool) (path : Path) (above : List FileTree) :
    FileTree → List Place
  | .file _ => []
  | .dir es => placesOf enter path (.dir es :: above) es

/-- The places of these entries of the directory at the path, and those below them. -/
def FileTree.placesOf (enter : Text → Bool) (path : Path) (above : List FileTree) :
    List (Text × FileTree) → List Place
  | [] => []
  | (name, tree) :: es =>
    let here := Path.join path name
    let places := if tree.isDir && !enter name then []
      else ⟨here, tree, above⟩ :: placesBelow enter here above tree
    places ++ placesOf enter path above es

end

/-- The places below, save the directories whose names `enter` refuses. -/
def Place.below (enter : Text → Bool) (p : Place) : List Place :=
  p.tree.placesBelow enter p.path p.above

/-- The places of the directory's entries. -/
def Place.children (p : Place) : List Place :=
  p.tree.entries.map fun e => ⟨Path.join p.path e.1, e.2, p.tree :: p.above⟩

/-- Directories that a build makes or fetches. -/
def buildDirectories : List Text := ["node_modules", "target", "dist", "build"]

/-- A directory of that name holds sources: it is not hidden and no build makes it. -/
def holdsSources (name : Text) : Bool := name.head? != some '.' && !buildDirectories.contains name

end GraphqlBuild
