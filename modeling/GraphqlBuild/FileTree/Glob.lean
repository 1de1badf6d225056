import GraphqlBuild.FileTree.Walk
/-!
# Glob patterns

A pattern is a path whose components may hold `*`, `?` and bracketed sets; the component `**` stands for any
number of directories. `Glob.parse` checks the whole pattern first and then each component for itself, since
a set must not go over a `/`. `Glob.expand` lists the places of a tree that match.

| here | in the program |
| --- | --- |
| `Glob.parse`, `Glob.expand` | `glob` as `collect_files` calls it |
| `PatternError.message` | the error it ends with |
-/

namespace GraphqlBuild.Glob

/-! ## Patterns -/

/-- What is wrong with a pattern. -/
inductive Mistake
  /-- More than two stars in a row. -/
  | manyStars
  /-- Two stars that share a component with something else. -/
  | sharedStars
  /-- A bracket that is not closed. -/
  | openSet
deriving DecidableEq, Repr

/-- The wording of the mistake. -/
def Mistake.message : Mistake → Text
  | manyStars => "wildcards are either regular `*` or recursive `**`"
  | sharedStars => "recursive wildcards must form a single path component"
  | openSet => "invalid range pattern"

/-- A mistake and where it is, counted in characters. -/
structure PatternError where
  position : Nat
  mistake : Mistake
deriving DecidableEq, Repr

/-- The wording of the error. -/
def PatternError.message (e : PatternError) : Text :=
  "Pattern syntax error near position " ++ Text.ofNat e.position ++ ": " ++ e.mistake.message

/-- The characters from the first to the last. -/
structure CharSpan where
  first : Char
  last : Char
deriving DecidableEq, Repr

/-- A part of a pattern. -/
inductive Item
  | char (c : Char)
  | anyChar
  /-- Any number of characters. -/
  | anyText
  /-- Any number of directories. -/
  | anyDirs
  /-- A character in one of the spans, or, if `negated`, in none of them. -/
  | set (negated : Bool) (spans : List CharSpan)
deriving DecidableEq, Repr

/-- The spans that the text between two brackets lists. -/
def spansOf : Text → List CharSpan
  | a :: '-' :: b :: t => ⟨a, b⟩ :: spansOf t
  | a :: t => ⟨a, a⟩ :: spansOf t
  | [] => []

/-- The set whose opening bracket was just read, the number of its further characters and what follows. A
closing bracket in the first place is a member. -/
def readSet? (t : Text) : Option (Item × Nat × Text) :=
  let negated := t.head? == some '!'
  let t := if negated then t.tail else t
  match t with
  | [] => none
  | c :: t =>
    let members := t.takeWhile (· != ']')
    match t.dropWhile (· != ']') with
    | [] => none
    | _ :: rest =>
      some (.set negated (spansOf (c :: members)), members.length + (if negated then 3 else 2), rest)

/-- The items of a pattern, at most `n` of them. `position` characters came before, and `fresh` says that a
component begins here. -/
def readItems : Nat → (position : Nat) → (fresh : Bool) → Text → Except PatternError (List Item)
  | 0, _, _, _ => .ok []
  | _ + 1, _, _, [] => .ok []
  | n + 1, position, fresh, c :: t =>
    if c = '*' then
      let further := (t.takeWhile (· == '*')).length
      let rest := t.drop further
      match further, rest with
      | 0, _ => (readItems n (position + 1) false t).map (.anyText :: ·)
      | 1, rest =>
        if !fresh then .error ⟨position - 1, .sharedStars⟩
        else match rest with
          | [] => .ok [.anyDirs]
          | '/' :: rest => (readItems n (position + 3) true rest).map (.anyDirs :: ·)
          | _ => .error ⟨position + 2, .sharedStars⟩
      | _, _ => .error ⟨position + 2, .manyStars⟩
    else if c = '?' then (readItems n (position + 1) false t).map (.anyChar :: ·)
    else if c = '[' then
      match readSet? t with
      | none => .error ⟨position, .openSet⟩
      | some (item, count, rest) => (readItems n (position + 1 + count) false rest).map (item :: ·)
    else (readItems n (position + 1) (c == '/') t).map (.char c :: ·)

/-- The items of a text. -/
def itemsOf (t : Text) : Except PatternError (List Item) := readItems t.length 0 true t

/-- A component of a pattern. -/
inductive Step
  /-- Exactly this name. -/
  | exactly (name : Text)
  /-- Each name that matches. -/
  | matching (items : List Item)
  /-- Any number of directories. -/
  | anyDirs
deriving DecidableEq, Repr

/-- The character that an item stands for, if it is only one. -/
def Item.char? : Item → Option Char
  | char c => some c
  | _ => none

/-- The component that the items make up. -/
def Step.ofItems (items : List Item) : Step :=
  if items = [.anyDirs] then .anyDirs
  else match items.mapM Item.char? with
    | some name => .exactly name
    | none => .matching items

/-- Several steps over any number of directories are one. -/
def collapseSteps : List Step → List Step
  | .anyDirs :: .anyDirs :: steps => collapseSteps (.anyDirs :: steps)
  | s :: steps => s :: collapseSteps steps
  | [] => []

end Glob

/-- A pattern for absolute paths. -/
structure Glob where
  /-- The components, no two of which in a row stand for any number of directories. -/
  steps : List Glob.Step
  /-- Only directories match. -/
  dirsOnly : Bool
deriving DecidableEq, Repr

namespace Glob

/-- The pattern that an absolute path spells. -/
def parse (p : Path) : Except PatternError Glob := do
  let _ ← itemsOf p
  let components := match (Path.pieces p).tail with
    | [[]] => [[]]
    | pieces => if pieces.getLast? = some [] then pieces.dropLast else pieces
  let steps ← components.mapM fun t => (itemsOf t).map Step.ofItems
  return ⟨collapseSteps steps, p.getLast? == some '/'⟩

/-! ## Matching names -/

/-- The item matches the character. -/
def Item.covers : Item → Char → Bool
  | .char d, c => c == d
  | .anyChar, _ => true
  | .set negated spans, c => (spans.any fun s => s.first ≤ c && c ≤ s.last) != negated
  | .anyText, _ | .anyDirs, _ => false

/-- The text and what is left of it after each of its characters. -/
def suffixes : Text → List Text
  | [] => [[]]
  | c :: t => (c :: t) :: suffixes t

/-- The items match the whole text. -/
def matchItems : List Item → Text → Bool
  | [], t => t.isEmpty
  | .anyText :: items, t => (suffixes t).any (matchItems items)
  | _ :: _, [] => false
  | item :: items, c :: t => item.covers c && matchItems items t

/-- The component matches a name. -/
def Step.accepts : Step → Text → Bool
  | exactly name, t => t == name
  | matching items, t => matchItems items t
  | anyDirs, _ => false

/-! ## Expansion -/

/-- The directory itself and the one above it, where a pattern that begins with a dot matches them. -/
def dotPlaces (items : List Item) (p : Place) : List Place :=
  if items.head? = some (.char '.') then
    let names : List Text := ["..", "."]
    (names.filter (matchItems items)).filterMap fun name => (p.step name).toOption
  else []

/-- The entries of the directory whose names the component accepts, in order. -/
def acceptedOf (s : Step) (places : List Place) : List Place :=
  places.filter fun q => q.path.fileName?.any s.accepts

/-- The places that the components lead to. -/
def expandSteps : List Step → Place → List Place
  | [], p => [p]
  | .exactly name :: steps, p => (p.step name).toOption.toList.flatMap (expandSteps steps)
  | .matching items :: steps, p =>
    if p.tree.isDir then
      (dotPlaces items p ++ acceptedOf (.matching items) p.children).flatMap (expandSteps steps)
    else []
  | [.anyDirs], p => (p.below fun _ => true).filter fun q => q.tree.isDir
  | .anyDirs :: s :: steps, p => (acceptedOf s (p.below fun _ => true)).flatMap (expandSteps steps)

/-- The places below the root that match the pattern. -/
def expand (g : Glob) (w : Workspace) : List Place :=
  (expandSteps g.steps w.top).filter fun p => !g.dirsOnly || p.tree.isDir

end Glob

end GraphqlBuild
