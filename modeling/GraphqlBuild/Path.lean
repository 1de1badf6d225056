import GraphqlBuild.Text.Basic
/-!
# Paths

A path is a text; `/` separates its components. A repeated or final `/` and the component `.` say
nothing, save a `.` at the very beginning. What a path names is decided by `FileTree`; here are only its
spelling (`Path.join`, `Path.parent?`, `Path.ancestors`), its last name and that name's extension, and the
order of paths by component.

| here | in the program |
| --- | --- |
| `join`, `parent?`, `ancestors` | how `find_config` and `collect_files` build paths |
| `fileName?`, `extension?` | how `Language::from_path`, `SourceMode::route` and `ConfigFormat::detect` read them |
| `below?` | `display_path` |
| `lt`, `ordered` | the set in which `collect_files` gathers files |
-/

namespace GraphqlBuild

/-- A path, as it is written. -/
abbrev Path := Text

/-- One step of a path. -/
inductive Component
  /-- The root directory, which an absolute path begins with. -/
  | root
  /-- The `.` that a relative path may begin with. -/
  | here
  /-- A step up, `..`. -/
  | up
  /-- A step to the entry of that name. -/
  | name (text : Text)
deriving DecidableEq, Repr

namespace Component

/-- How the component is written. -/
def text : Component → Text
  | root => "/"
  | here => "."
  | up => ".."
  | name t => t

/-- The place of the kinds in the order of components. -/
def rank : Component → Nat
  | root => 0
  | here => 1
  | up => 2
  | name _ => 3

/-- Kinds by rank, names by code point. -/
def lt : Component → Component → Bool
  | name s, name t => decide (s < t)
  | a, b => a.rank < b.rank

end Component

namespace Path

/-- The piece says nothing about where the path leads. -/
def isIdle (piece : Text) : Bool := piece == [] || piece == ['.']

/-- The component that a piece stands for, when it is not idle. -/
def componentOf (piece : Text) : Component :=
  if piece = ['.', '.'] then .up else .name piece

/-- The pieces between the slashes. -/
def pieces (p : Path) : List Text := Text.splitOn (· == '/') p

/-- The path begins at the root. -/
def isAbsolute : Path → Bool
  | '/' :: _ => true
  | _ => false

/-- The components of the pieces after the first. -/
def componentsOf (ps : List Text) : List Component :=
  (ps.filter fun piece => !isIdle piece).map componentOf

/-- The steps that the path spells. -/
def components (p : Path) : List Component :=
  match p, pieces p with
  | [], _ => []
  | _, [] => []
  | _, [] :: rest => .root :: componentsOf rest
  | _, ['.'] :: rest => .here :: componentsOf rest
  | _, first :: rest => componentOf first :: componentsOf rest

/-- The last component, if it is a name. -/
def fileName? (p : Path) : Option Text :=
  match (components p).getLast? with
  | some (.name t) => some t
  | _ => none

/-- What follows the last dot of a name, unless the name has no dot but its first character. -/
def extensionOf? (name : Text) : Option Text :=
  let reversed := name.reverse
  let stem := (reversed.dropWhile (· != '.')).drop 1
  if stem.isEmpty then none else some (reversed.takeWhile (· != '.')).reverse

/-- The extension of the last component. -/
def extension? (p : Path) : Option Text := (fileName? p).bind extensionOf?

/-- The path that leads to `next` when one stands at `base`. -/
def join (base next : Path) : Path :=
  if isAbsolute next then next
  else match base.getLast? with
    | none => next
    | some '/' => base ++ next
    | some _ => base ++ '/' :: next

/-- The pieces without the idle ones at their end; the first piece always stays. -/
def dropIdleEnd : List Text → List Text
  | [] => []
  | first :: rest => first :: (rest.reverse.dropWhile isIdle).reverse

/-- The path that the pieces spell; the one empty piece is the root. -/
def ofPieces : List Text → Path
  | [] => []
  | [[]] => ['/']
  | ps => Text.join ['/'] ps

/-- The path without its last component; `none` if there is no component but the root. -/
def parent? (p : Path) : Option Path :=
  match dropIdleEnd (pieces p) with
  | [] | [[]] => none
  | ps => some (ofPieces (dropIdleEnd ps.dropLast))

/-- The path and at most `n` parents above it. -/
def upTo : Nat → Path → List Path
  | 0, p => [p]
  | n + 1, p => p :: match parent? p with
    | none => []
    | some q => upTo n q

/-- The path, its parent, the parent of that, and so on. Each is shorter than the one before, so the
length of the path bounds their number. -/
def ancestors (p : Path) : List Path := upTo p.length p

/-- Drops the idle pieces at the front and then, one after the other, pieces that spell the
components. -/
def dropComponents? : List Component → List Text → Option (List Text)
  | [], ps => some ps
  | _ :: _, [] => none
  | c :: cs, piece :: ps =>
    if isIdle piece then dropComponents? (c :: cs) ps
    else if componentOf piece = c then dropComponents? cs ps
    else none

/-- The rest of the path below `base`, if `base` is a directory on its way. -/
def below? (base p : Path) : Option Path :=
  let rest : Option (List Text) :=
    match components base, components p, pieces p with
    | .root :: bs, .root :: _, _ :: ps => dropComponents? bs ps
    | .here :: bs, .here :: _, _ :: ps => dropComponents? bs ps
    | [], _, ps => some ps
    | b :: bs, c :: _, _ :: ps => if b = c then dropComponents? bs ps else none
    | _, _, _ => none
  rest.map fun ps => Text.join ['/'] ((ps.dropWhile isIdle).reverse.dropWhile isIdle).reverse

/-- Component by component; a path comes before those below it. -/
def componentsLt : List Component → List Component → Bool
  | _, [] => false
  | [], _ :: _ => true
  | a :: as, b :: bs => if a = b then componentsLt as bs else a.lt b

/-- The order of paths by their components. -/
def lt (p q : Path) : Bool := componentsLt (components p) (components q)

/-- Inserts a path into an ascending list; of two spellings of the same components the first stays. -/
def insertOrdered (p : Path) : List Path → List Path
  | [] => [p]
  | q :: rest =>
    if components p = components q then q :: rest
    else if lt p q then p :: q :: rest
    else q :: insertOrdered p rest

/-- The paths in ascending order, each sequence of components once. -/
def ordered (paths : List Path) : List Path := paths.foldl (fun sorted p => insertOrdered p sorted) []

end Path

end GraphqlBuild
