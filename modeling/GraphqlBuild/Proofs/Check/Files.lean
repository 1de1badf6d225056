import GraphqlBuild.Check
import GraphqlBuild.Proofs.FileTree.Walk
import GraphqlBuild.Proofs.Route
/-!
# The files of a check without patterns

Without patterns a check is for the GraphQL files below the working directory that are in no hidden directory and in
none that a build makes (`IsGraphqlSource`). It lists them once each and in order, but for those with a question mark
anywhere in their path: routing takes what stands before the mark for an identity with a query
(`Pipeline.mem_collectFiles_nil_iff`). So the name of the working directory can hide every file below it
(`Pipeline.collectFiles_nil_of_question_mark`).
-/

namespace GraphqlBuild

open GraphqlBuild.Path

/-- Names lead from the directory to a file with one of the extensions, the case of ASCII letters aside, and through no
directory that is hidden or made by a build. -/
def IsGraphqlSource (extensions : List Text) (tree : FileTree) (names : List Text) : Prop :=
  ∃ dirs name content, names = dirs ++ [name] ∧ tree.get? names = some (.file content) ∧
    (∃ e, extensionOf? name = some e ∧ ∃ x ∈ extensions, Text.eqIgnoringCase x e = true) ∧
    ∀ d ∈ dirs, d.head? ≠ some '.' ∧ d ∉ buildDirectories

theorem holdsSources_iff {name : Text} :
    holdsSources name = true ↔ name.head? ≠ some '.' ∧ name ∉ buildDirectories := by
  simp [holdsSources]

namespace Pipeline
variable {p : Pipeline} {w : Workspace}

/-! ## One place -/

theorem isGraphqlFile_iff {place : Place} : p.isGraphqlFile place = true ↔
    (∃ content, place.tree = .file content) ∧ '?' ∉ place.path ∧ ∃ e, place.path.extension? = some e ∧
      ∃ x ∈ p.options.extensions, Text.eqIgnoringCase x e = true := by
  rw [isGraphqlFile, Bool.and_eq_true, beq_iff_eq, route, SourceMode.route_eq_wholeFile_iff]
  refine and_congr_left fun _ => ?_
  cases place.tree with
  | file content => simp [FileTree.isDir]
  | dir es => simp [FileTree.isDir]

theorem extension?_along_concat {name : Text} (h : IsName name) (base : Path) (dirs : List Text) :
    (along base (dirs ++ [name])).extension? = extensionOf? name := by
  rw [along_concat, extension?, h.fileName?_join, Option.bind_some]

/-! ## All places -/

/-- The files before they are put in order, by the names that lead to them. -/
theorem mem_filesBelow_iff (hroot : w.root.WellFormed) {place : Place} (hplace : w.at? w.current = .ok place)
    {path : Path} : path ∈ p.filesBelow w ↔ ∃ names, path = along w.current names ∧
      IsGraphqlSource p.options.extensions place.tree names ∧ '?' ∉ path := by
  have hwell : place.tree.WellFormed := (Workspace.wellFormed_of_at? hroot hplace).tree
  have hfound : path ∈ p.filesBelow w ↔
      (∃ content, ∃ q ∈ place.tree.placesBelow holdsSources w.current place.above,
        q.path = path ∧ q.tree = .file content) ∧
      '?' ∉ path ∧ ∃ e, path.extension? = some e ∧ ∃ x ∈ p.options.extensions, Text.eqIgnoringCase x e = true := by
    simp only [filesBelow, hplace, List.mem_map, List.mem_filter, isGraphqlFile_iff, Place.below]
    constructor
    · rintro ⟨q, ⟨hq, ⟨content, hfile⟩, hrouted⟩, rfl⟩
      exact ⟨⟨content, q, hq, rfl, hfile⟩, hrouted⟩
    · rintro ⟨⟨content, q, hq, rfl, hfile⟩, hrouted⟩
      exact ⟨q, ⟨hq, ⟨content, hfile⟩, hrouted⟩, rfl⟩
  simp only [hfound, FileTree.exists_file_mem_placesBelow_iff hwell, holdsSources_iff]
  constructor
  · rintro ⟨⟨content, dirs, name, rfl, hget, hdirs⟩, hquery, hextension⟩
    rw [extension?_along_concat (hwell.isName_of_get? hget name (by simp))] at hextension
    exact ⟨dirs ++ [name], rfl, ⟨dirs, name, content, rfl, hget, hextension, hdirs⟩, hquery⟩
  · rintro ⟨_, rfl, ⟨dirs, name, content, rfl, hget, hextension, hdirs⟩, hquery⟩
    refine ⟨⟨content, dirs, name, rfl, hget, hdirs⟩, hquery, ?_⟩
    rwa [extension?_along_concat (hwell.isName_of_get? hget name (by simp))]

theorem isName_of_isGraphqlSource {extensions : List Text} {tree : FileTree} (hwell : tree.WellFormed)
    {names : List Text} (h : IsGraphqlSource extensions tree names) : ∀ name ∈ names, IsName name := by
  obtain ⟨dirs, name, content, rfl, hget, -⟩ := h
  exact hwell.isName_of_get? hget

/-- **The files of a check without patterns**: in order and each once, the GraphQL files below the working directory
whose path has no question mark; all of them exactly if no such path has one. -/
theorem mem_collectFiles_nil_iff (p : Pipeline) (hroot : w.root.WellFormed) {place : Place}
    (hplace : w.at? w.current = .ok place) :
    ∃ files, p.collectFiles w [] = .ok files ∧ Ascending files ∧ files.Nodup ∧
      (∀ path, path ∈ files ↔ ∃ names, path = along w.current names ∧
        IsGraphqlSource p.options.extensions place.tree names ∧ '?' ∉ w.current ∧ ∀ name ∈ names, '?' ∉ name) ∧
      ((∀ path, path ∈ files ↔ ∃ names, path = along w.current names ∧
          IsGraphqlSource p.options.extensions place.tree names) ↔
        ∀ names, IsGraphqlSource p.options.extensions place.tree names →
          '?' ∉ w.current ∧ ∀ name ∈ names, '?' ∉ name) := by
  have hwell : place.tree.WellFormed := (Workspace.wellFormed_of_at? hroot hplace).tree
  have hquery {names : List Text} (h : IsGraphqlSource p.options.extensions place.tree names) :
      '?' ∉ along w.current names ↔ '?' ∉ w.current ∧ ∀ name ∈ names, '?' ∉ name := by
    rw [mem_along_iff (isName_of_isGraphqlSource hwell h) (by decide)]
    simp [not_or]
  -- the names can be read off a path, so putting in order drops nothing
  have hdistinct : ∀ a ∈ p.filesBelow w, ∀ b ∈ p.filesBelow w, components a = components b → a = b := by
    intro a ha b hb hab
    obtain ⟨names, rfl, hsource, -⟩ := (mem_filesBelow_iff hroot hplace).1 ha
    obtain ⟨names', rfl, hsource', -⟩ := (mem_filesBelow_iff hroot hplace).1 hb
    rw [along_injective (isName_of_isGraphqlSource hwell hsource) (isName_of_isGraphqlSource hwell hsource') hab]
  have hmem : ∀ path, path ∈ ordered (p.filesBelow w) ↔ ∃ names, path = along w.current names ∧
      IsGraphqlSource p.options.extensions place.tree names ∧ '?' ∉ w.current ∧ ∀ name ∈ names, '?' ∉ name := by
    intro path
    rw [mem_ordered_iff hdistinct, mem_filesBelow_iff hroot hplace]
    constructor
    · rintro ⟨names, rfl, hsource, hnone⟩
      exact ⟨names, rfl, hsource, (hquery hsource).1 hnone⟩
    · rintro ⟨names, rfl, hsource, hnone⟩
      exact ⟨names, rfl, hsource, (hquery hsource).2 hnone⟩
  refine ⟨_, rfl, ascending_ordered _, (ascending_ordered _).nodup, hmem, ?_, ?_⟩
  · intro hall names hsource
    obtain ⟨names', heq, hsource', hnone⟩ := (hmem _).1 ((hall _).2 ⟨names, rfl, hsource⟩)
    rw [← hquery hsource, heq, hquery hsource']
    exact hnone
  · intro hall path
    rw [hmem]
    constructor
    · rintro ⟨names, rfl, hsource, -⟩
      exact ⟨names, rfl, hsource⟩
    · rintro ⟨names, rfl, hsource⟩
      exact ⟨names, rfl, hsource, hall names hsource⟩

/-- Only the directories below the working directory count, which may itself be hidden. -/
theorem mem_collectFiles_nil_iff_hidden_directory :
    let p : Pipeline := { options := Options.default }
    let cache : FileTree := .dir [("dist", .dir [("b.gql", .file (some "\x7b b \x7d"))]),
      ("src", .dir [("a.GRAPHQL", .file (some "\x7b a \x7d")), ("notes.txt", .file none)])]
    let w : Workspace := { root := .dir [(".cache", cache)], current := "/.cache" }
    w.root.WellFormed ∧ w.at? w.current = .ok ⟨"/.cache", cache, [w.root]⟩ ∧
      ∃ files, p.collectFiles w [] = .ok files ∧ "/.cache/src/a.GRAPHQL".toList ∈ files := by
  intro p cache w
  have hroot : w.root.WellFormed := by
    simp only [w, cache, FileTree.wellFormed_dir_iff, FileTree.wellFormed_file, List.forall_mem_cons,
      List.not_mem_nil, IsEmpty.forall_iff, implies_true, and_true]
    decide
  have hplace : w.at? w.current = .ok ⟨"/.cache", cache, [w.root]⟩ := by rfl
  obtain ⟨files, hfiles, -, -, hmem, -⟩ := p.mem_collectFiles_nil_iff hroot hplace
  have hsource : IsGraphqlSource p.options.extensions cache ["src", "a.GRAPHQL"] :=
    ⟨["src"], "a.GRAPHQL", some "\x7b a \x7d", rfl, by rfl, ⟨"GRAPHQL", by decide, by decide⟩, by decide⟩
  exact ⟨hroot, hplace, files, hfiles, (hmem _).2 ⟨_, by decide, hsource, by decide, by decide⟩⟩

/-- A working directory whose name has a question mark hides its files, and so does a directory below it. -/
theorem collectFiles_nil_of_question_mark :
    let p : Pipeline := { options := Options.default }
    let what : FileTree := .dir [("q.graphql", .file (some "\x7b a \x7d"))]
    let w (current : Path) : Workspace := { root := .dir [("what?", what)], current }
    (w "/").root.WellFormed ∧
      IsGraphqlSource p.options.extensions (w "/").root ["what?", "q.graphql"] ∧
      IsGraphqlSource p.options.extensions what ["q.graphql"] ∧
      (w "/").at? "/" = .ok (w "/").top ∧ p.collectFiles (w "/") [] = .ok [] ∧
      (w "/what?").at? "/what?" = .ok ⟨"/what?", what, [(w "/").root]⟩ ∧ p.collectFiles (w "/what?") [] = .ok [] := by
  intro p what w
  refine ⟨?_, ?_, ?_, by rfl, by decide, by rfl, by decide +kernel⟩
  · simp only [w, what, FileTree.wellFormed_dir_iff, FileTree.wellFormed_file, List.forall_mem_cons,
      List.not_mem_nil, IsEmpty.forall_iff, implies_true, and_true]
    decide
  · exact ⟨["what?"], "q.graphql", some "\x7b a \x7d", rfl, by rfl, ⟨"graphql", by decide, by decide⟩, by decide⟩
  · exact ⟨[], "q.graphql", some "\x7b a \x7d", rfl, by rfl, ⟨"graphql", by decide, by decide⟩, by decide⟩

end Pipeline

end GraphqlBuild
