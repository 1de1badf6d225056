import GraphqlBuild.CommandLine.Report
import GraphqlBuild.Proofs.Check.Patterns
/-!
# Files that are listed twice

A check tells paths apart by their components and not by the files they lead to. So a file is listed twice if patterns
lead to it on two ways, one of which steps up (`Pipeline.keepsApart_iff`), and then it is counted twice. Patterns that
can step up only within a common beginning list each file once (`Pipeline.keepsApart_of_risesOnlyIn`).
-/

namespace GraphqlBuild

open GraphqlBuild.Path

/-- The paths lead to different places. -/
def Workspace.KeepsApart (w : Workspace) (paths : List Path) : Prop := (paths.map w.namesTo).Nodup

theorem Workspace.namesTo_of_isAbsolute {path : Path} (h : isAbsolute path = true) (w : Workspace) :
    w.namesTo path = lead [] (moves path) := by
  rw [namesTo_eq, join_of_isAbsolute h]

theorem Path.up_mem_components_iff {path : Path} (h : isAbsolute path = true) :
    .up ∈ components path ↔ ['.', '.'] ∈ moves path := by
  rw [components_of_isAbsolute h, List.mem_cons, List.mem_map]
  constructor
  · rintro (hup | ⟨piece, hpiece, hup⟩)
    · cases hup
    · have heq : piece = ['.', '.'] := componentOf_injective hup
      exact heq ▸ hpiece
  · exact fun hmem => .inr ⟨_, hmem, rfl⟩

theorem Path.Ascending.nodup_map_components {paths : List Path} (h : Ascending paths) :
    (paths.map components).Nodup := by
  refine List.pairwise_map.2 (List.Pairwise.imp (fun {a b} hlt heq => ?_) h)
  rw [lt, heq, componentsLt_irrefl] at hlt
  cases hlt

namespace Pipeline
variable {p : Pipeline} {w : Workspace} {path : Path} {patterns files : List Path} {place : Place}

/-! ## What is found -/

/-- The walk finds the path, or, if there are any, one of the patterns. -/
def Finds (p : Pipeline) (w : Workspace) (patterns : List Text) (path : Path) : Prop :=
  if patterns = [] then path ∈ p.filesBelow w else ∃ place, p.Matches w patterns place ∧ place.path = path

/-- What is listed is what is found, in one spelling of its components. -/
theorem collectFiles_spec (h : p.collectFiles w patterns = .ok files) :
    Ascending files ∧ (∀ path ∈ files, p.Finds w patterns path) ∧
      ∀ path, p.Finds w patterns path → ∃ x ∈ files, components x = components path := by
  obtain ⟨paths, rfl, hmem⟩ : ∃ paths, files = ordered paths ∧ ∀ path, path ∈ paths ↔ p.Finds w patterns path := by
    by_cases hnil : patterns = []
    · subst hnil
      cases h
      exact ⟨_, rfl, fun path => by rw [Finds, if_pos rfl]⟩
    · simpa only [Finds, if_neg hnil] using exists_ordered_of_collectFiles hnil h
  exact ⟨ascending_ordered paths, fun path hpath => (hmem path).1 (mem_of_mem_ordered hpath),
    fun path hpath => exists_mem_ordered ((hmem path).2 hpath)⟩

/-- Behind these pieces no piece of the pattern can lead up: none is `..`, and none that begins with a dot has wildcards
or brackets. -/
def RisesOnlyIn (front : List Text) (pattern : Path) : Prop :=
  front <+: (pieces pattern).tail ∧ ∀ piece ∈ (pieces pattern).tail.drop front.length,
    piece ≠ ['.', '.'] ∧ (piece.head? = some '.' → Glob.IsPlain piece)

instance (front : List Text) (pattern : Path) : Decidable (RisesOnlyIn front pattern) :=
  inferInstanceAs (Decidable (_ ∧ _))

section
variable {base : List Text} (hbase : ∀ name ∈ base, IsName name) (hcurrent : w.current = along ['/'] base)
  (hroot : w.root.WellFormed)
include hbase hcurrent hroot

/-- Without patterns the names below the working directory lead to what is found. -/
theorem exists_of_mem_filesBelow (h : path ∈ p.filesBelow w) : ∃ names, (∀ name ∈ names, IsName name) ∧
    path = along ['/'] (base ++ names) ∧ ∃ content, w.root.get? (base ++ names) = some (.file content) := by
  cases hplace : w.at? w.current with
  | error failure => simp [filesBelow, hplace] at h
  | ok place =>
    obtain ⟨names, rfl, hsource, -⟩ := (mem_filesBelow_iff hroot hplace).1 h
    have hwell : place.tree.WellFormed := (Workspace.wellFormed_of_at? hroot hplace).tree
    have hnames := isName_of_isGraphqlSource hwell hsource
    obtain ⟨dirs, name, content, rfl, hget, -⟩ := hsource
    have habsolute : isAbsolute w.current = true := hcurrent ▸ isAbsolute_along base
    have hstands := (Workspace.standsAt_of_at? habsolute hplace).1.get?_eq
    rw [Workspace.namesTo_of_isAbsolute habsolute, hcurrent, moves_along hbase,
      lead_of_forall_ne fun name hname => (hbase name hname).ne_up, List.nil_append] at hstands
    refine ⟨_, hnames, ?_, content, ?_⟩
    · rw [hcurrent]
      exact List.foldl_append.symm
    · rw [FileTree.get?_append, hstands, Option.bind_some, hget]

/-- **What is found** is an absolute path to a file. -/
theorem Finds.exists_file (h : p.Finds w patterns path) :
    isAbsolute path = true ∧ ∃ content, w.root.get? (w.namesTo path) = some (.file content) := by
  unfold Finds at h
  split at h
  · obtain ⟨names, hnames, rfl, hfile⟩ := exists_of_mem_filesBelow hbase hcurrent hroot h
    have hall : ∀ name ∈ base ++ names, IsName name := List.forall_mem_append.2 ⟨hbase, hnames⟩
    refine ⟨isAbsolute_along _, ?_⟩
    rwa [Workspace.namesTo_of_isAbsolute (isAbsolute_along _), moves_along hall,
      lead_of_forall_ne fun name hname => (hall name hname).ne_up, List.nil_append]
  · obtain ⟨place, ⟨pattern, -, g, hparse, hplace, hgraphql⟩, rfl⟩ := h
    obtain ⟨⟨content, hfile⟩, -⟩ := isGraphqlFile_iff.1 hgraphql
    obtain ⟨steps, ps, -, -, -, hslash, hwalk⟩ := Glob.exists_walk_of_mem_expand hroot
      (isAbsolute_join (hcurrent ▸ isAbsolute_along base) pattern) hparse hplace (by rw [hfile]; rfl)
    have hpath : place.path = along ['/'] ps := Place.path_of_walk hwalk
    have htop : w.top.StandsAt w.root [] := .top _
    refine ⟨hpath ▸ isAbsolute_along ps, content, ?_⟩
    rw [Workspace.namesTo_of_isAbsolute (hpath ▸ isAbsolute_along ps), hpath, moves_along_pieces hslash,
      (htop.walk hwalk).get?_eq, hfile]

/-- Two paths that are listed for one file differ in a step up. -/
theorem keepsApart_iff_of_up (hfiles : p.collectFiles w patterns = .ok files) :
    w.KeepsApart files ↔
      ∀ a ∈ files, ∀ b ∈ files, .up ∈ components a → w.namesTo a = w.namesTo b → a = b := by
  obtain ⟨hascending, hfinds, -⟩ := collectFiles_spec hfiles
  rw [Workspace.KeepsApart, List.nodup_map_iff_inj_on hascending.nodup]
  constructor
  · exact fun h a ha b hb _ => h a ha b hb
  · intro h a ha b hb heq
    obtain ⟨habsoluteA, -⟩ := (hfinds a ha).exists_file hbase hcurrent hroot
    obtain ⟨habsoluteB, -⟩ := (hfinds b hb).exists_file hbase hcurrent hroot
    by_cases hupA : .up ∈ components a
    · exact h a ha b hb hupA heq
    by_cases hupB : .up ∈ components b
    · exact (h b hb a ha hupB heq.symm).symm
    · rw [up_mem_components_iff habsoluteA] at hupA
      rw [up_mem_components_iff habsoluteB] at hupB
      rw [Workspace.namesTo_of_isAbsolute habsoluteA, Workspace.namesTo_of_isAbsolute habsoluteB,
        lead_of_forall_ne fun m hm hup => hupA (hup ▸ hm), lead_of_forall_ne fun m hm hup => hupB (hup ▸ hm),
        List.nil_append, List.nil_append, ← components_inj habsoluteA habsoluteB] at heq
      exact List.inj_on_of_nodup_map hascending.nodup_map_components ha hb heq

omit hbase in
/-- What is found goes along one beginning and from there only down. -/
theorem Finds.exists_moves {front : List Text} (hfront : ∀ piece ∈ front, Glob.IsPlain piece)
    (hrises : ∀ pattern ∈ patterns, RisesOnlyIn front (join w.current pattern)) (hne : patterns ≠ [])
    (h : p.Finds w patterns path) :
    ∃ names, moves path = movesOf front ++ names ∧ ∀ name ∈ names, name ≠ ['.', '.'] := by
  rw [Finds, if_neg hne] at h
  obtain ⟨place, ⟨pattern, hpattern, g, hparse, hplace, hgraphql⟩, rfl⟩ := h
  obtain ⟨⟨content, hfile⟩, -⟩ := isGraphqlFile_iff.1 hgraphql
  obtain ⟨steps, ps, hspells, -, hfollows, hslash, hwalk⟩ := Glob.exists_walk_of_mem_expand hroot
    (isAbsolute_join (hcurrent ▸ isAbsolute_along base) pattern) hparse hplace (by rw [hfile]; rfl)
  obtain ⟨⟨rest, hpieces⟩, hrest⟩ := hrises pattern hpattern
  rw [← hpieces, List.drop_left] at hrest
  rw [← hpieces] at hspells
  obtain ⟨below, rfl, hspellsBelow⟩ := Glob.exists_of_forall₂_spells_append hspells hfront
  rw [Glob.collapseSteps_map_exactly_append] at hfollows
  obtain ⟨psBelow, rfl, hfollowsBelow⟩ := hfollows.exists_of_map_exactly
  have hup : ['.', '.'] ∉ psBelow := hfollowsBelow.up_notMem fun s hs => by
    obtain ⟨t, ht, hspell⟩ := Glob.exists_spells_of_mem hspellsBelow (Glob.mem_collapseSteps_iff.1 hs)
    exact Glob.not_rises_of_spells hspell (hrest t ht).1 (hrest t ht).2
  refine ⟨movesOf psBelow, ?_, fun name hname heq => hup (heq ▸ (mem_movesOf_iff.1 hname).1)⟩
  rw [Place.path_of_walk hwalk, show w.top.path = ['/'] from rfl, moves_along_pieces hslash, movesOf_append]

/-- **Patterns that step up only within a common beginning** list each file once. -/
theorem keepsApart_of_risesOnlyIn (hfiles : p.collectFiles w patterns = .ok files) {front : List Text}
    (hfront : ∀ piece ∈ front, Glob.IsPlain piece)
    (hrises : ∀ pattern ∈ patterns, RisesOnlyIn front (join w.current pattern)) : w.KeepsApart files := by
  obtain ⟨hascending, hfinds, -⟩ := collectFiles_spec hfiles
  obtain ⟨start, hstart⟩ : ∃ start, ∀ path ∈ files, ∃ names, moves path = start ++ names ∧
      ∀ name ∈ names, name ≠ ['.', '.'] := by
    by_cases hne : patterns = []
    · refine ⟨[], fun path hpath => ?_⟩
      have hbelow := hfinds path hpath
      rw [Finds, if_pos hne] at hbelow
      obtain ⟨names, hnames, rfl, -⟩ := exists_of_mem_filesBelow hbase hcurrent hroot hbelow
      have hall : ∀ name ∈ base ++ names, IsName name := List.forall_mem_append.2 ⟨hbase, hnames⟩
      exact ⟨_, moves_along hall, fun name hname => (hall name hname).ne_up⟩
    · exact ⟨_, fun path hpath => (hfinds path hpath).exists_moves hcurrent hroot hfront hrises hne⟩
  refine (List.nodup_map_iff_inj_on hascending.nodup).2 fun a ha b hb heq => ?_
  obtain ⟨habsoluteA, -⟩ := (hfinds a ha).exists_file hbase hcurrent hroot
  obtain ⟨habsoluteB, -⟩ := (hfinds b hb).exists_file hbase hcurrent hroot
  obtain ⟨namesA, hmovesA, hupA⟩ := hstart a ha
  obtain ⟨namesB, hmovesB, hupB⟩ := hstart b hb
  rw [Workspace.namesTo_of_isAbsolute habsoluteA, Workspace.namesTo_of_isAbsolute habsoluteB, hmovesA, hmovesB,
    lead_append, lead_append, lead_of_forall_ne hupA, lead_of_forall_ne hupB, List.append_cancel_left_eq] at heq
  refine List.inj_on_of_nodup_map hascending.nodup_map_components ha hb ?_
  rw [components_inj habsoluteA habsoluteB, hmovesA, hmovesB, heq]

end

end Pipeline

/-! ## How many files there are -/

namespace CommandLine

/-- The member of that name. -/
def member? (name : Text) : JsonValue → Option JsonValue
  | .object members => members.lookup name
  | _ => none

/-- The number of files that the report states. -/
def totalFiles? (report : JsonValue) : Option JsonValue := (member? "stats" report).bind (member? "total_files")

theorem totalFiles?_reportJson (w : Workspace) (files : List CheckedFile) :
    totalFiles? (reportJson w files) = some (.integer files.length) := by
  rfl

end CommandLine

/-- A list is as long as another one of the same elements without repetition exactly if it has none either. -/
theorem length_eq_iff_nodup {α : Type} [DecidableEq α] {xs distinct : List α} (hnodup : distinct.Nodup)
    (hmem : ∀ x, x ∈ distinct ↔ x ∈ xs) : xs.length = distinct.length ↔ xs.Nodup := by
  have hperm : xs.dedup.Perm distinct :=
    (List.perm_ext_iff_of_nodup (List.nodup_dedup xs) hnodup).2 fun x => by rw [List.mem_dedup, hmem]
  rw [← hperm.length_eq, eq_comm]
  constructor
  · exact fun h => (List.dedup_sublist xs).eq_of_length h ▸ List.nodup_dedup xs
  · exact fun h => by rw [h.dedup]

namespace Pipeline

/-- **The files of a check** are each listed once exactly if no listed path that steps up leads to the file of another
one, and exactly then the report states how many different files were found. -/
theorem keepsApart_iff (p : Pipeline) {base : List Text} (hbase : ∀ name ∈ base, IsName name)
    (hcurrent : w.current = along ['/'] base) (hroot : w.root.WellFormed)
    (hfiles : p.collectFiles w patterns = .ok files) :
    (∀ path ∈ files, ∃ content, w.root.get? (w.namesTo path) = some (.file content)) ∧
    (w.KeepsApart files ↔
      ∀ a ∈ files, ∀ b ∈ files, .up ∈ components a → w.namesTo a = w.namesTo b → a = b) ∧
    (∀ distinct : List (List Text), distinct.Nodup →
      (∀ names, names ∈ distinct ↔ ∃ path, p.Finds w patterns path ∧ w.namesTo path = names) →
      (CommandLine.totalFiles? (CommandLine.reportJson w (files.map (p.checkFile w))) =
        some (.integer distinct.length) ↔ w.KeepsApart files)) ∧
    ((∃ front : List Text, (∀ piece ∈ front, Glob.IsPlain piece) ∧
      ∀ pattern ∈ patterns, RisesOnlyIn front (join w.current pattern)) → w.KeepsApart files) := by
  obtain ⟨-, hfinds, hlisted⟩ := collectFiles_spec hfiles
  refine ⟨fun path hpath => ((hfinds path hpath).exists_file hbase hcurrent hroot).2,
    keepsApart_iff_of_up hbase hcurrent hroot hfiles, fun distinct hnodup hdistinct => ?_,
    fun ⟨front, hfront, hrises⟩ => keepsApart_of_risesOnlyIn hbase hcurrent hroot hfiles hfront hrises⟩
  have hmem : ∀ names, names ∈ distinct ↔ names ∈ files.map w.namesTo := by
    intro names
    rw [hdistinct, List.mem_map]
    constructor
    · rintro ⟨path, hpath, rfl⟩
      obtain ⟨x, hx, heq⟩ := hlisted path hpath
      obtain ⟨habsolute, -⟩ := hpath.exists_file hbase hcurrent hroot
      obtain ⟨habsoluteX, -⟩ := (hfinds x hx).exists_file hbase hcurrent hroot
      rw [components_inj habsoluteX habsolute] at heq
      exact ⟨x, hx, by rw [Workspace.namesTo_of_isAbsolute habsoluteX, Workspace.namesTo_of_isAbsolute habsolute, heq]⟩
    · rintro ⟨path, hpath, rfl⟩
      exact ⟨path, hfinds path hpath, rfl⟩
  rw [CommandLine.totalFiles?_reportJson, List.length_map, Option.some.injEq, JsonValue.integer.injEq, Int.natCast_inj,
    Workspace.KeepsApart, ← length_eq_iff_nodup hnodup hmem, List.length_map]

/-- Patterns that overlap, from a directory beside the files. -/
theorem keepsApart_iff_overlapping :
    let p : Pipeline := { options := Options.default }
    let w : Workspace := {
      root := .dir [("app", .dir []), ("lib", .dir [("a.graphql", .file none), ("b.graphql", .file none)])]
      current := along ['/'] ["app"] }
    let patterns : List Text := ["../lib/*.graphql", "../lib/./a.graphql", "../**/b.graphql"]
    (∀ name ∈ (["app"] : List Text), IsName name) ∧ w.current = along ['/'] ["app"] ∧ w.root.WellFormed ∧
      p.collectFiles w patterns = .ok ["/app/../lib/a.graphql", "/app/../lib/b.graphql"] ∧
      w.KeepsApart ["/app/../lib/a.graphql", "/app/../lib/b.graphql"] := by
  intro p w patterns
  have hbase : ∀ name ∈ (["app"] : List Text), IsName name := by decide
  have hroot : w.root.WellFormed := by
    simp only [w, FileTree.wellFormed_dir_iff, FileTree.wellFormed_file, List.forall_mem_cons, List.not_mem_nil,
      IsEmpty.forall_iff, implies_true, and_true]
    decide
  have hfiles : p.collectFiles w patterns = .ok ["/app/../lib/a.graphql", "/app/../lib/b.graphql"] := by decide +kernel
  have hrises : ∀ pattern ∈ patterns, RisesOnlyIn ["app", ".."] (join w.current pattern) := by
    decide
  exact ⟨hbase, rfl, hroot, hfiles, (keepsApart_iff p hbase rfl hroot hfiles).2.2.2 ⟨["app", ".."], by decide, hrises⟩⟩

/-- A file that two patterns spell differently is listed and counted twice. -/
theorem collectFiles_twice :
    let p : Pipeline := { options := Options.default }
    let w : Workspace := { root := .dir [("a.graphql", .file (some "\x7b a \x7d")), ("d", .dir [])] }
    let patterns : List Text := ["a.graphql", "d/../a.graphql"]
    let files : List Path := ["/a.graphql", "/d/../a.graphql"]
    w.root.WellFormed ∧ p.collectFiles w patterns = .ok files ∧
      w.namesTo "/a.graphql" = ["a.graphql"] ∧ w.namesTo "/d/../a.graphql" = ["a.graphql"] ∧ ¬ w.KeepsApart files ∧
      CommandLine.totalFiles? (CommandLine.reportJson w (files.map (p.checkFile w))) = some (.integer 2) := by
  intro p w patterns files
  refine ⟨?_, by decide +kernel, by decide, by decide, by unfold Workspace.KeepsApart; decide, rfl⟩
  simp only [w, FileTree.wellFormed_dir_iff, FileTree.wellFormed_file, List.forall_mem_cons, List.not_mem_nil,
    IsEmpty.forall_iff, implies_true, and_true]
  decide

end Pipeline

end GraphqlBuild
