import GraphqlBuild.Proofs.Check.Files
import GraphqlBuild.Proofs.FileTree.Full
import GraphqlBuild.Proofs.FileTree.Accepted
import GraphqlBuild.Proofs.Path.Moves
/-!
# The files of a check with a pattern

A relative pattern is joined to the working directory and the whole is read as one pattern, so the names of the
directory are read as patterns too. A pattern without wildcards and brackets lists the file that it leads to, in
whatever tree, exactly if no name of the working directory has a `*`, `?` or `[` (`Pipeline.listsItself_iff`). A
bracketed name, for one, stands for a single character and hides every file below (`Pipeline.collectFiles_bracketed`).
-/

namespace GraphqlBuild

open GraphqlBuild.Path

namespace Pipeline
variable {p : Pipeline} {w : Workspace} {pattern path : Path} {patterns files : List Path} {place : Place}

/-! ## What patterns match -/

/-- A GraphQL file is at the place, and one of the patterns leads there. -/
def Matches (p : Pipeline) (w : Workspace) (patterns : List Path) (place : Place) : Prop :=
  ∃ pattern ∈ patterns, ∃ g, Glob.parse (join w.current pattern) = .ok g ∧ place ∈ g.expand w ∧
    p.isGraphqlFile place = true

theorem filesMatching_eq_ok_iff {paths : List Path} : p.filesMatching w pattern = .ok paths ↔
    ∃ g, Glob.parse (join w.current pattern) = .ok g ∧
      paths = ((g.expand w).filter p.isGraphqlFile).map Place.path := by
  unfold filesMatching
  cases Glob.parse (join w.current pattern) <;> simp [bind, Except.bind, pure, Except.pure, eq_comm]

theorem mem_flatten_iff_of_mapM {α β ε : Type} {f : α → Except ε (List β)} {as : List α} {lists : List (List β)}
    (h : as.mapM f = .ok lists) {b : β} : b ∈ lists.flatten ↔ ∃ a ∈ as, ∃ list, f a = .ok list ∧ b ∈ list := by
  induction Glob.mapM_eq_ok_iff.1 h with
  | nil => simp
  | cons hfirst hrest ih => simp [hfirst, ih (Glob.mapM_eq_ok_iff.2 hrest)]

/-- The list is made of what the patterns match. -/
theorem exists_ordered_of_collectFiles (hne : patterns ≠ []) (h : p.collectFiles w patterns = .ok files) :
    ∃ paths, files = ordered paths ∧
      ∀ path, path ∈ paths ↔ ∃ place, p.Matches w patterns place ∧ place.path = path := by
  unfold collectFiles at h
  rw [List.isEmpty_eq_false_iff.2 hne] at h
  cases hlists : patterns.mapM (p.filesMatching w) with
  | error e =>
    rw [hlists] at h
    cases h
  | ok lists =>
    rw [hlists] at h
    cases h
    refine ⟨_, rfl, fun path => ?_⟩
    simp only [mem_flatten_iff_of_mapM hlists, filesMatching_eq_ok_iff, Matches]
    constructor
    · rintro ⟨pattern, hpattern, _, ⟨g, hparse, rfl⟩, hmem⟩
      obtain ⟨place, hplace, rfl⟩ := List.mem_map.1 hmem
      obtain ⟨hexpand, hgraphql⟩ := List.mem_filter.1 hplace
      exact ⟨place, ⟨pattern, hpattern, g, hparse, hexpand, hgraphql⟩, rfl⟩
    · rintro ⟨place, ⟨pattern, hpattern, g, hparse, hexpand, hgraphql⟩, rfl⟩
      exact ⟨pattern, hpattern, _, ⟨g, hparse, rfl⟩, List.mem_map_of_mem (List.mem_filter.2 ⟨hexpand, hgraphql⟩)⟩

/-! ## Plain patterns -/

/-- The pattern is relative, has no wildcards and brackets and leads to a file with one of the extensions. -/
structure NamesGraphqlFile (p : Pipeline) (w : Workspace) (pattern : Path) : Prop where
  relative : isAbsolute pattern = false
  literal : Glob.IsPlain pattern ∧ ']' ∉ pattern
  hasFile : w.hasFile pattern = true
  extension : ∃ e, pattern.extension? = some e ∧ ∃ x ∈ p.options.extensions, Text.eqIgnoringCase x e = true

/-- The pattern lists the file that it leads to and nothing else. -/
def ListsItself (p : Pipeline) (w : Workspace) (pattern : Path) : Prop :=
  ∃ path, p.collectFiles w [pattern] = .ok [path] ∧ components path = components (join w.current pattern)

theorem exists_walk_of_hasFile (h : w.hasFile pattern = true) :
    ∃ place content, (pieces (join w.current pattern)).tail.foldlM Place.step w.top = .ok place ∧
      place.tree = .file content := by
  obtain ⟨place, content, hplace, htree⟩ := Workspace.hasFile_iff.1 h
  unfold Workspace.at? at hplace
  split at hplace
  · cases hplace
  · exact ⟨place, content, hplace, htree⟩

/-- What is joined to a path keeps its extension. -/
theorem extension?_of_moves_eq {base next : Path} {e : Text} (hmoves : moves path = moves base ++ moves next)
    (h : next.extension? = some e) : path.extension? = some e := by
  obtain ⟨name, hname, he⟩ := Option.bind_eq_some_iff.1 h
  obtain ⟨hlast, hup⟩ := fileName?_eq_some_iff.1 hname
  refine Option.bind_eq_some_iff.2 ⟨name, fileName?_eq_some_iff.2 ⟨?_, hup⟩, he⟩
  rw [hmoves, List.getLast?_append, hlast, Option.some_or]

theorem ordered_singleton (path : Path) : ordered [path] = [path] := rfl

theorem isPlain_join {base next : Path} (hbase : Glob.IsPlain base) (hnext : Glob.IsPlain next) :
    Glob.IsPlain (join base next) := by
  cases habsolute : isAbsolute next with
  | true => rwa [join_of_isAbsolute habsolute]
  | false =>
    have hslash : Glob.IsPlain ['/'] := by decide
    obtain ⟨-, hjoin⟩ | ⟨b, rfl, hjoin⟩ | ⟨-, hjoin⟩ := join_eq_of_relative habsolute base <;>
      grind [Glob.IsPlain]

/-- **A plain working directory** leaves the pattern its meaning. -/
theorem listsItself_of_isPlain (habsolute : isAbsolute w.current = true) (hplain : Glob.IsPlain w.current)
    (h : p.NamesGraphqlFile w pattern) : p.ListsItself w pattern := by
  have hjoined : isAbsolute (join w.current pattern) = true := isAbsolute_join habsolute pattern
  obtain ⟨place, content, hwalk, htree⟩ := exists_walk_of_hasFile h.hasFile
  have hall : Glob.IsPlain (join w.current pattern) := isPlain_join hplain h.literal.1
  obtain ⟨g, hparse, hexpand⟩ := Glob.expand_of_isPlain hall hjoined hwalk (by rw [htree]; rfl)
  have hpath : place.path = along ['/'] (pieces (join w.current pattern)).tail := Place.path_of_walk hwalk
  have habs : isAbsolute place.path = true := hpath ▸ isAbsolute_along _
  have hmoves : moves place.path = moves (join w.current pattern) := by
    rw [hpath, moves_along_pieces fun piece hpiece => slash_notMem_of_mem_pieces (List.mem_of_mem_tail hpiece),
      movesOf_tail_pieces hjoined]
  have hgraphql : p.isGraphqlFile place = true := by
    obtain ⟨e, he, hx⟩ := h.extension
    refine isGraphqlFile_iff.2 ⟨⟨content, htree⟩, fun hmem => ?_, e, ?_, hx⟩
    · rw [mem_iff_exists_mem_moves (by decide) (by decide), hmoves,
        ← mem_iff_exists_mem_moves (by decide) (by decide)] at hmem
      exact (hall _ hmem).2.1 rfl
    · exact extension?_of_moves_eq (hmoves.trans (moves_join h.relative _)) he
  refine ⟨place.path, ?_, (components_inj habs hjoined).2 hmoves⟩
  have hmatching : p.filesMatching w pattern = .ok [place.path] :=
    filesMatching_eq_ok_iff.2 ⟨g, hparse, by rw [hexpand, List.filter_singleton, hgraphql]; rfl⟩
  simp [collectFiles, hmatching, ordered_singleton, bind, Except.bind, pure, Except.pure]

/-! ## Directories with other names -/

section
variable {base : List Text} {name : Text} {root : FileTree} {steps : List Glob.Step} {ps : List Text}

/-- A name below the working directory is a file if the tree has one there. -/
theorem hasFile_of_get? (hnames : ∀ x ∈ base ++ [name], IsName x) {content : Option Text}
    (hget : root.get? (base ++ [name]) = some (.file content)) :
    ({ root, current := along ['/'] base } : Workspace).hasFile name = true := by
  have hname : IsName name := hnames name (by simp)
  have hbase : ∀ x ∈ base, IsName x := fun x hx => hnames x (List.mem_append_left _ hx)
  have hmoves : moves (join (along ['/'] base) []) = base := by
    rw [moves_join rfl, moves_along hbase, moves_nil, List.append_nil]
  have hpasses : root.Passes base := FileTree.Passes.of_get? (fun x hx => (hbase x hx).ne_up) hget
  have hjoin : join [] name = name := by simp [join, hname.isAbsolute_eq_false]
  have hiff := Workspace.hasFile_join_iff (w := { root, current := along ['/'] base }) (isAbsolute_along base) (p := [])
    (by rwa [hmoves]) hname
  rw [hjoin] at hiff
  refine hiff.2 ⟨content, ?_⟩
  rw [Workspace.namesTo_eq, hmoves, lead_of_forall_ne fun x hx => (hbase x hx).ne_up, List.nil_append, hget]

/-- A file that lists itself is at the end of a walk that its path accepts when it is read as a pattern. -/
theorem ListsItself.exists_follows (h : p.ListsItself { root, current := along ['/'] base } name)
    (hroot : root.WellFormed) (hnames : ∀ x ∈ base ++ [name], IsName x) :
    ∃ steps ps, List.Forall₂ Glob.Spells (base ++ [name]) steps ∧
      Glob.parse (join (along ['/'] base) name) = .ok ⟨Glob.collapseSteps steps, false⟩ ∧
      Glob.Follows (Glob.collapseSteps steps) ps ∧ (∀ piece ∈ ps, '/' ∉ piece) ∧
      movesOf ps = base ++ [name] ∧ ∀ x ∈ base ++ [name], '?' ∉ x := by
  obtain ⟨path, hfiles, hcomponents⟩ := h
  obtain ⟨paths, hordered, hmem⟩ := exists_ordered_of_collectFiles (by simp) hfiles
  obtain ⟨place, ⟨_, hpattern, g, hparse, hplace, hgraphql⟩, rfl⟩ := (hmem path).1
    (mem_of_mem_ordered (hordered ▸ List.mem_singleton_self path))
  rw [List.mem_singleton.1 hpattern] at hparse
  have hjoined : isAbsolute (join (along ['/'] base) name) = true := isAbsolute_join (isAbsolute_along base) name
  obtain ⟨⟨content, hfile⟩, hquery, -⟩ := isGraphqlFile_iff.1 hgraphql
  obtain ⟨steps, ps, hspells, rfl, hfollows, hslash, hwalk⟩ :=
    Glob.exists_walk_of_mem_expand hroot hjoined hparse hplace (by rw [hfile]; rfl)
  rw [← along_concat, tail_pieces_along hnames (by simp)] at hspells
  have hpath : place.path = along ['/'] ps := Place.path_of_walk hwalk
  have hmoves : moves place.path = base ++ [name] := by
    rw [(components_inj (hpath ▸ isAbsolute_along ps) hjoined).1 hcomponents, ← along_concat, moves_along hnames]
  refine ⟨steps, ps, hspells, hparse, hfollows, hslash, ?_, fun x hx hmem => hquery ?_⟩
  · rw [← hmoves, hpath, moves_along_pieces hslash]
  · exact (mem_iff_exists_mem_moves (by decide) (by decide)).2 ⟨x, hmoves ▸ hx, hmem⟩

/-- An accepted walk to a file with one of the extensions is matched, where the tree has the file. -/
theorem exists_matches_of_follows (hroot : root.WellFormed) {current : Path} {g : Glob}
    (hparse : Glob.parse (join current pattern) = .ok g) (hdirs : g.dirsOnly = false)
    (hends : g.steps.getLast? ≠ some .anyDirs) (hfollows : Glob.Follows g.steps (ps ++ [name]))
    (hslash : ∀ piece ∈ ps, '/' ∉ piece) {names : List Text} (hps : movesOf ps = names)
    (hnames : ∀ x ∈ names ++ [name], IsName x) {content : Option Text}
    (hget : root.get? (names ++ [name]) = some (.file content)) (hquery : ∀ x ∈ names ++ [name], '?' ∉ x)
    (hextension : ∃ e, extensionOf? name = some e ∧ ∃ x ∈ p.options.extensions, Text.eqIgnoringCase x e = true) :
    ∃ place, p.Matches { root, current } [pattern] place ∧ isAbsolute place.path = true ∧
      moves place.path = names ++ [name] := by
  have hname : IsName name := hnames name (by simp)
  have hup : ∀ x ∈ names, x ≠ ['.', '.'] := fun x hx => (hnames x (List.mem_append_left _ hx)).ne_up
  have hpasses : root.Passes (movesOf ps) := hps ▸ FileTree.Passes.of_get? hup hget
  have hfound : root.get? (lead [] (movesOf ps) ++ [name]) = some (.file content) := by
    rw [hps, lead_of_forall_ne hup, List.nil_append, hget]
  obtain ⟨place, hwalk, htree⟩ := hpasses.exists_walk_concat (.top ['/']) hname hfound
  have hpath : place.path = along ['/'] (ps ++ [name]) := Place.path_of_walk hwalk
  have hmoves : moves place.path = names ++ [name] := by
    have hpieces : ∀ piece ∈ ps ++ [name], '/' ∉ piece := by
      simpa [or_imp, forall_and] using ⟨hslash, hname.slash_notMem⟩
    rw [hpath, moves_along_pieces hpieces, movesOf_append, hps, hname.movesOf_singleton]
  refine ⟨place, ⟨pattern, List.mem_singleton_self _, g, hparse, ?_, ?_⟩, hpath ▸ isAbsolute_along _, hmoves⟩
  · rw [Glob.expand, List.mem_filter, hdirs]
    exact ⟨Glob.mem_expandSteps_of_walk hfollows (p := ⟨['/'], root, []⟩) ⟨hroot, by simp⟩ hwalk (.inr hends), rfl⟩
  · obtain ⟨e, he, hx⟩ := hextension
    refine isGraphqlFile_iff.2 ⟨⟨content, htree⟩, fun hmem => ?_, e, ?_, hx⟩
    · obtain ⟨x, hx, hmem⟩ := (mem_iff_exists_mem_moves (by decide) (by decide)).1 hmem
      exact hquery x (hmoves ▸ hx) hmem
    · refine Option.bind_eq_some_iff.2 ⟨name, fileName?_eq_some_iff.2 ⟨?_, hname.ne_up⟩, he⟩
      rw [hmoves, List.getLast?_concat]

theorem ListsItself.components_eq (h : p.ListsItself w pattern) (hplace : p.Matches w [pattern] place) :
    components place.path = components (join w.current pattern) := by
  obtain ⟨path, hfiles, hcomponents⟩ := h
  obtain ⟨paths, hordered, hmem⟩ := exists_ordered_of_collectFiles (by simp) hfiles
  obtain ⟨x, hx, heq⟩ := exists_mem_ordered ((hmem _).2 ⟨place, hplace, rfl⟩)
  rw [← hordered, List.mem_singleton] at hx
  rw [← heq, hx, hcomponents]

/-- With a star in it the path of a file, read as a pattern, matches a second file, which may be in the tree as well. -/
theorem exists_second_match (hnames : ∀ x ∈ base ++ [name], IsName x) (hplain : Glob.IsPlain name)
    (hextension : ∃ e, extensionOf? name = some e ∧ ∃ x ∈ p.options.extensions, Text.eqIgnoringCase x e = true)
    (hspells : List.Forall₂ Glob.Spells (base ++ [name]) steps)
    (hparse : Glob.parse (join (along ['/'] base) name) = .ok ⟨Glob.collapseSteps steps, false⟩)
    (hfollows : Glob.Follows (Glob.collapseSteps steps) ps) (hslash : ∀ piece ∈ ps, '/' ∉ piece)
    (hps : movesOf ps = base ++ [name]) (hquery : ∀ x ∈ base ++ [name], '?' ∉ x)
    (hstar : ∃ s ∈ steps, s.HasStar) :
    ∃ root : FileTree, root.WellFormed ∧ root.get? (base ++ [name]) = some (.file (some [])) ∧
      ∃ place, p.Matches { root, current := along ['/'] base } [name] place ∧ isAbsolute place.path = true ∧
        moves place.path ≠ base ++ [name] := by
  have hlast : (Glob.collapseSteps steps).getLast? = some (.exactly name) := by
    rw [Glob.getLast?_collapseSteps, Glob.getLast?_of_isPlain hspells hplain]
  obtain ⟨ps', names, haccepted, hslash', hps', hnames', hbelow, habove⟩ := hfollows.exists_beside hslash hlast
    (by simpa [Glob.mem_collapseSteps_iff] using hstar) hps fun x hx => ⟨hnames x hx, hquery x hx⟩
  obtain ⟨root, hroot, hfiles, -⟩ := FileTree.exists_wellFormed [base ++ [name], names ++ [name]] []
    (by simp) (by simpa using ⟨by simpa using hnames, by simpa using fun x hx => (hnames' x hx).1⟩)
    (by simpa using ⟨fun h => absurd h hbelow, fun h => absurd h habove⟩) (by simp)
  obtain ⟨place, hplace, habsolute, hmoves⟩ := exists_matches_of_follows (p := p) hroot hparse rfl
    (by rw [hlast]; simp) haccepted hslash' hps' (fun x hx => (hnames' x hx).1) (hfiles _ (by simp))
    (fun x hx => (hnames' x hx).2) hextension
  refine ⟨root, hroot, hfiles _ (by simp), place, hplace, habsolute, fun heq => hbelow ?_⟩
  have hsame : base ++ [name] = names ++ [name] := heq.symm.trans hmoves
  exact hsame ▸ List.prefix_rfl

/-- **A working directory with a wildcard or bracket** in one of its names takes a plain name away from its file, in
some tree: either the path does not match itself as a pattern, or it matches other files too. -/
theorem isPlain_of_listsItself {name : Text} (hnames : ∀ x ∈ base ++ [name], IsName x) (hplain : Glob.IsPlain name)
    (hextension : ∃ e, extensionOf? name = some e ∧ ∃ x ∈ p.options.extensions, Text.eqIgnoringCase x e = true)
    (h : ∀ root : FileTree, root.WellFormed → root.get? (base ++ [name]) = some (.file (some [])) →
      p.ListsItself { root, current := along ['/'] base } name) :
    ∀ x ∈ base, Glob.IsPlain x := by
  obtain ⟨root, hroot, hfile, -⟩ := FileTree.exists_wellFormed [base ++ [name]] []
    (by simp) (by simpa using hnames) (by simp) (by simp)
  obtain ⟨steps, ps, hspells, hparse, hfollows, hslash, hps, hquery⟩ :=
    (h root hroot (hfile _ (by simp))).exists_follows hroot hnames
  by_cases hstar : ∃ s ∈ steps, s.HasStar
  · obtain ⟨root', hroot', hfile', place, hplace, habsolute, hmoves⟩ :=
      exists_second_match hnames hplain hextension hspells hparse hfollows hslash hps hquery hstar
    have hsame := (h root' hroot' hfile').components_eq hplace
    rw [components_inj habsolute (isAbsolute_join (isAbsolute_along base) name), ← along_concat,
      moves_along hnames] at hsame
    exact absurd hsame hmoves
  · have hstar : ∀ s ∈ steps, ¬ s.HasStar := fun s hs hsStar => hstar ⟨s, hs, hsStar⟩
    rw [Glob.collapseSteps_eq_self fun hmem => hstar _ hmem trivial] at hfollows
    have hself : ps = base ++ [name] := by
      refine hps ▸ ((movesOf_sublist ps).eq_of_length ?_).symm
      rw [hps, hfollows.length_eq hstar, hspells.length_eq]
    subst hself
    intro x hx c hc
    have hx : x ∈ base ++ [name] := List.mem_append_left _ hx
    obtain ⟨hnoStar, hnoSet⟩ := Glob.not_mem_of_follows_self hspells hstar hfollows x hx
    exact ⟨fun h => hnoStar (h ▸ hc), fun h => hquery x hx (h ▸ hc), fun h => hnoSet (h ▸ hc)⟩

/-- **A relative pattern without wildcards and brackets** lists its file and no other, whatever the tree, exactly if the
working directory has no `*`, `?` or `[` in its names: they are part of the pattern that is read. -/
theorem listsItself_iff (hbase : ∀ x ∈ base, IsName x) :
    (∀ (p : Pipeline) (root : FileTree) (pattern : Path), root.WellFormed →
        p.NamesGraphqlFile { root, current := along ['/'] base } pattern →
        p.ListsItself { root, current := along ['/'] base } pattern) ↔
      ∀ x ∈ base, Glob.IsPlain x := by
  constructor
  · intro h
    have hnames : ∀ x ∈ base ++ ["q.graphql".toList], IsName x := by
      intro x hx
      rcases List.mem_append.1 hx with hx | hx
      · exact hbase x hx
      · exact List.mem_singleton.1 hx ▸ (by decide)
    refine isPlain_of_listsItself (p := { options := Options.default }) hnames (by decide)
      ⟨"graphql", by decide, by decide⟩ fun root hroot hget => ?_
    exact h _ root _ hroot ⟨by decide, by decide, hasFile_of_get? hnames hget, "graphql", by decide, by decide⟩
  · intro hplain p root pattern _ hfile
    refine listsItself_of_isPlain (isAbsolute_along base) (fun c hc => ?_) hfile
    by_cases hslash : c = '/'
    · subst hslash
      decide
    · obtain hc | ⟨x, hx, hc⟩ := (mem_along_iff hbase hslash ['/']).1 hc
      · exact absurd (List.mem_singleton.1 hc) hslash
      · exact hplain x hx c hc

end

/-- The pattern may go up and down again. -/
theorem listsItself_iff_up_and_down :
    let p : Pipeline := { options := Options.default }
    let w : Workspace := {
      root := .dir [("my app", .dir [("a.graphql", .file none), ("b.gql", .file none), ("sub", .dir [])])]
      current := along ['/'] ["my app"] }
    (∀ x ∈ (["my app"] : List Text), IsName x) ∧ p.NamesGraphqlFile w "./sub/../a.graphql" ∧
      p.ListsItself w "./sub/../a.graphql" := by
  intro p w
  have hbase : ∀ x ∈ (["my app"] : List Text), IsName x := by decide
  have hplain : ∀ x ∈ (["my app"] : List Text), Glob.IsPlain x := by decide
  have hfile : p.NamesGraphqlFile w "./sub/../a.graphql" :=
    ⟨by decide, by decide, by decide, "graphql", by decide, by decide⟩
  have hroot : w.root.WellFormed := by
    simp only [w, FileTree.wellFormed_dir_iff, FileTree.wellFormed_file, List.forall_mem_cons, List.not_mem_nil,
      IsEmpty.forall_iff, implies_true, and_true]
    decide
  exact ⟨hbase, hfile, (listsItself_iff hbase).2 hplain p w.root _ hroot hfile⟩

/-- In the directory of a bracketed name a file is there and cannot be listed: the name stands for one character. -/
theorem collectFiles_bracketed :
    let p : Pipeline := { options := Options.default }
    let w : Workspace := {
      root := .dir [("[slug]", .dir [("q.graphql", .file (some "\x7b a \x7d"))])]
      current := along ['/'] ["[slug]"] }
    w.root.WellFormed ∧ (∀ x ∈ (["[slug]"] : List Text), IsName x) ∧ p.NamesGraphqlFile w "q.graphql" ∧
      p.collectFiles w ["q.graphql"] = .ok [] ∧ ¬ p.ListsItself w "q.graphql" := by
  intro p w
  have hfiles : p.collectFiles w ["q.graphql"] = .ok [] := by decide +kernel
  have hfile : p.NamesGraphqlFile w "q.graphql" := ⟨by decide, by decide, by decide, "graphql", by decide, by decide⟩
  refine ⟨?_, by decide, hfile, hfiles, fun ⟨path, hpath, _⟩ => ?_⟩
  · simp only [w, FileTree.wellFormed_dir_iff, FileTree.wellFormed_file, List.forall_mem_cons, List.not_mem_nil,
      IsEmpty.forall_iff, implies_true, and_true]
    decide
  · rw [hfiles] at hpath
    cases hpath

end Pipeline

end GraphqlBuild
