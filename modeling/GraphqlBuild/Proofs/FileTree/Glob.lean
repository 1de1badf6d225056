import GraphqlBuild.FileTree.Glob
import GraphqlBuild.Proofs.FileTree.Place
/-!
# What a pattern matches

The components of a pattern accept the pieces of a walk, one piece each, save that `**` accepts any number of names
(`Glob.Follows`). A place matches exactly if some accepted walk leads to it (`Glob.exists_walk_of_mem_expandSteps`,
`Glob.mem_expandSteps_of_walk`); so what a pattern can match is a matter of texts, and a file tree only decides which of
the walks it has.
-/

namespace GraphqlBuild

open GraphqlBuild.Path

/-! ## Entries of a directory -/

namespace Place
variable {p q : Place}

theorem path_of_step {piece : Text} (h : p.step piece = .ok q) : q.path = join p.path piece := by
  unfold Place.step at h
  cases htree : p.tree with
  | file content =>
    rw [htree] at h
    cases h
  | dir es =>
    simp only [htree] at h
    split at h
    · cases h
      rfl
    · split at h
      · split at h <;> cases h <;> rfl
      · split at h <;> cases h
        rfl

/-- The path of a walk is the path of its pieces. -/
theorem path_of_walk {ps : List Text} (h : ps.foldlM Place.step p = .ok q) : q.path = along p.path ps := by
  induction ps generalizing p with
  | nil =>
    cases h
    rfl
  | cons piece ps ih =>
    obtain ⟨c, hstep, hrest⟩ := walk_cons_eq_ok_iff.1 h
    rw [ih hrest, path_of_step hstep, along, along, List.foldl_cons]

theorem fileName?_of_step {name : Text} (hname : IsName name) (h : p.step name = .ok q) :
    q.path.fileName? = some name := by
  rw [path_of_step h, hname.fileName?_join]

theorem step_name {es : List (Text × FileTree)} (hdir : p.tree = .dir es) {name : Text} (hname : IsName name) :
    p.step name = match es.lookup name with
      | none => .error .notFound
      | some entry => .ok ⟨join p.path name, entry, p.tree :: p.above⟩ := by
  unfold Place.step
  rw [hdir]
  cases hentry : es.lookup name <;> simp [hentry, hname.isIdle_eq_false, hname.ne_up]

/-- The entries of a directory are where its names lead. -/
theorem mem_children_iff (h : p.WellFormed) : q ∈ p.children ↔ ∃ name, IsName name ∧ p.step name = .ok q := by
  have htree := h.tree
  cases hdir : p.tree with
  | file content =>
    simp [children, FileTree.entries, hdir, Place.step]
  | dir es =>
    rw [hdir] at htree
    obtain ⟨hnodup, hentries⟩ := FileTree.wellFormed_dir_iff.1 htree
    simp only [children, FileTree.entries, hdir, List.mem_map]
    constructor
    · rintro ⟨⟨name, entry⟩, hmem, rfl⟩
      refine ⟨name, (hentries _ hmem).1, ?_⟩
      rw [step_name hdir (hentries _ hmem).1, FileTree.lookup_of_mem hnodup hmem, hdir]
    · rintro ⟨name, hname, hstep⟩
      rw [step_name hdir hname] at hstep
      cases hentry : es.lookup name with
      | none =>
        rw [hentry] at hstep
        cases hstep
      | some entry =>
        rw [hentry] at hstep
        cases hstep
        exact ⟨(name, entry), FileTree.mem_of_lookup hentry, by rw [hdir]⟩

theorem mem_below_iff : q ∈ p.below (fun _ => true) ↔ ∃ c ∈ p.children, q = c ∨ q ∈ c.below fun _ => true := by
  unfold below children
  cases p.tree with
  | file content => simp [FileTree.placesBelow, FileTree.entries]
  | dir es => simp [FileTree.placesBelow, FileTree.mem_placesOf_iff, FileTree.entries]

theorem exists_walk_of_mem_below (h : p.WellFormed) (hq : q ∈ p.below fun _ => true) :
    ∃ names, names ≠ [] ∧ (∀ name ∈ names, IsName name) ∧ names.foldlM Place.step p = .ok q := by
  obtain ⟨path, tree, above⟩ := p
  have htree : tree.WellFormed := h.tree
  induction htree generalizing path above with
  | file content => cases hq
  | @dir es nodup names trees ih =>
    obtain ⟨c, hc, hq⟩ := mem_below_iff.1 hq
    obtain ⟨name, hname, hstep⟩ := (mem_children_iff h).1 hc
    rcases hq with rfl | hq
    · exact ⟨[name], by simp, by simpa using hname, by simpa using hstep⟩
    · obtain ⟨e, he, rfl⟩ := List.mem_map.1 hc
      obtain ⟨rest, -, hrest, hwalk⟩ := ih e he _ _ (h.step hstep) hq
      exact ⟨name :: rest, by simp, by simpa using ⟨hname, hrest⟩, walk_cons_eq_ok_iff.2 ⟨_, hstep, hwalk⟩⟩

theorem mem_below_of_walk (h : p.WellFormed) {names : List Text} (hne : names ≠ [])
    (hnames : ∀ name ∈ names, IsName name) (hwalk : names.foldlM Place.step p = .ok q) :
    q ∈ p.below fun _ => true := by
  induction names generalizing p with
  | nil => exact absurd rfl hne
  | cons name names ih =>
    obtain ⟨hname, hnames⟩ := List.forall_mem_cons.1 hnames
    obtain ⟨c, hstep, hwalk⟩ := walk_cons_eq_ok_iff.1 hwalk
    refine mem_below_iff.2 ⟨c, (mem_children_iff h).2 ⟨name, hname, hstep⟩, ?_⟩
    by_cases hlast : names = []
    · subst hlast
      cases hwalk
      exact .inl rfl
    · exact .inr (ih (h.step hstep) hlast hnames hwalk)

end Place

namespace Glob

/-! ## Accepted walks -/

/-- The components of a pattern accept the pieces of a walk. A component with wildcards accepts names, and `.` and `..`
only if it begins with a dot itself. -/
inductive Follows : List Step → List Text → Prop
  | nil : Follows [] []
  | exactly (name : Text) {steps : List Step} {ps : List Text} (rest : Follows steps ps) :
      Follows (.exactly name :: steps) (name :: ps)
  | matching {items : List Item} {piece : Text} {steps : List Step} {ps : List Text}
      (accepts : matchItems items piece = true)
      (admits : IsName piece ∨ items.head? = some (.char '.') ∧ (piece = ['.', '.'] ∨ piece = ['.']))
      (rest : Follows steps ps) : Follows (.matching items :: steps) (piece :: ps)
  | dirs {dirs : List Text} (ne_nil : dirs ≠ []) (names : ∀ d ∈ dirs, IsName d) : Follows [.anyDirs] dirs
  | anyDirs {dirs : List Text} {step : Step} {name : Text} {steps : List Step} {ps : List Text}
      (names : ∀ d ∈ dirs, IsName d) (isName : IsName name) (accepts : step.accepts name = true)
      (rest : Follows steps ps) : Follows (.anyDirs :: step :: steps) (dirs ++ name :: ps)

theorem mem_acceptedOf_iff {s : Step} {places : List Place} {q : Place} :
    q ∈ acceptedOf s places ↔ q ∈ places ∧ q.path.fileName?.any s.accepts = true := List.mem_filter

theorem toOption_eq_some_iff {ε α : Type} {x : Except ε α} {a : α} : x.toOption = some a ↔ x = .ok a := by
  cases x <;> simp [Except.toOption]

theorem mem_dotPlaces_iff {items : List Item} {p q : Place} : q ∈ dotPlaces items p ↔
    items.head? = some (.char '.') ∧ ∃ piece : Text, (piece = ['.', '.'] ∨ piece = ['.']) ∧
      matchItems items piece = true ∧ p.step piece = .ok q := by
  unfold dotPlaces
  split
  · rename_i hdot
    simp [hdot, List.mem_filterMap, List.mem_filter, toOption_eq_some_iff, and_assoc]
  · rename_i hdot
    simp [hdot]

/-- **A match is an accepted walk.** -/
theorem exists_walk_of_mem_expandSteps : ∀ {steps : List Step} {p q : Place}, p.WellFormed → q ∈ expandSteps steps p →
    ∃ ps, Follows steps ps ∧ ps.foldlM Place.step p = .ok q
  | [], p, q, _, hq => by
    rw [expandSteps, List.mem_singleton] at hq
    exact ⟨[], .nil, by rw [hq]; rfl⟩
  | .exactly name :: steps, p, q, h, hq => by
    rw [expandSteps, List.mem_flatMap] at hq
    obtain ⟨c, hc, hq⟩ := hq
    rw [Option.mem_toList, toOption_eq_some_iff] at hc
    obtain ⟨ps, hfollows, hwalk⟩ := exists_walk_of_mem_expandSteps (h.step hc) hq
    exact ⟨name :: ps, .exactly name hfollows, Place.walk_cons_eq_ok_iff.2 ⟨c, hc, hwalk⟩⟩
  | .matching items :: steps, p, q, h, hq => by
    rw [expandSteps] at hq
    split at hq
    · obtain ⟨c, hc, hq⟩ := List.mem_flatMap.1 hq
      obtain ⟨piece, haccepts, hadmits, hstep⟩ : ∃ piece, matchItems items piece = true ∧
          (IsName piece ∨ items.head? = some (.char '.') ∧ (piece = ['.', '.'] ∨ piece = ['.'])) ∧
          p.step piece = .ok c := by
        rcases List.mem_append.1 hc with hc | hc
        · obtain ⟨hdot, piece, hpiece, haccepts, hstep⟩ := mem_dotPlaces_iff.1 hc
          exact ⟨piece, haccepts, .inr ⟨hdot, hpiece⟩, hstep⟩
        · obtain ⟨hc, haccepts⟩ := mem_acceptedOf_iff.1 hc
          obtain ⟨name, hname, hstep⟩ := (Place.mem_children_iff h).1 hc
          rw [Place.fileName?_of_step hname hstep] at haccepts
          exact ⟨name, haccepts, .inl hname, hstep⟩
      obtain ⟨ps, hfollows, hwalk⟩ := exists_walk_of_mem_expandSteps (h.step hstep) hq
      exact ⟨piece :: ps, .matching haccepts hadmits hfollows, Place.walk_cons_eq_ok_iff.2 ⟨c, hstep, hwalk⟩⟩
    · cases hq
  | [.anyDirs], p, q, h, hq => by
    rw [expandSteps, List.mem_filter] at hq
    obtain ⟨names, hne, hnames, hwalk⟩ := Place.exists_walk_of_mem_below h hq.1
    exact ⟨names, .dirs hne hnames, hwalk⟩
  | .anyDirs :: s :: steps, p, q, h, hq => by
    rw [expandSteps, List.mem_flatMap] at hq
    obtain ⟨c, hc, hq⟩ := hq
    obtain ⟨hc, haccepts⟩ := mem_acceptedOf_iff.1 hc
    obtain ⟨names, hne, hnames, hwalk⟩ := Place.exists_walk_of_mem_below h hc
    obtain ⟨dirs, name, rfl⟩ := (List.eq_nil_or_concat names).resolve_left hne
    rw [List.concat_eq_append] at hnames hwalk
    have hname : IsName name := hnames name (by simp)
    rw [Place.path_of_walk hwalk, along_concat, hname.fileName?_join] at haccepts
    obtain ⟨ps, hfollows, hrest⟩ := exists_walk_of_mem_expandSteps (h.foldlM_step hwalk) hq
    refine ⟨dirs ++ name :: ps, .anyDirs (fun d hd => hnames d (by simp [hd])) hname haccepts hfollows, ?_⟩
    rw [List.append_cons]
    exact Place.walk_append_eq_ok_iff.2 ⟨c, hwalk, hrest⟩

theorem last_of_cons {s : Step} {steps : List Step} {dir : Prop}
    (h : dir ∨ (s :: steps).getLast? ≠ some .anyDirs) : dir ∨ steps.getLast? ≠ some .anyDirs := by
  cases steps with
  | nil => exact .inr (by simp)
  | cons s' steps => rwa [List.getLast?_cons_cons] at h

/-- **An accepted walk is a match**, if it does not end with any number of directories at a file. -/
theorem mem_expandSteps_of_walk {steps : List Step} {ps : List Text} (hfollows : Follows steps ps) {p q : Place}
    (h : p.WellFormed) (hwalk : ps.foldlM Place.step p = .ok q)
    (hlast : q.tree.isDir = true ∨ steps.getLast? ≠ some .anyDirs) : q ∈ expandSteps steps p := by
  induction hfollows generalizing p with
  | nil =>
    cases hwalk
    simp [expandSteps]
  | exactly name rest ih =>
    obtain ⟨c, hstep, hwalk⟩ := Place.walk_cons_eq_ok_iff.1 hwalk
    rw [expandSteps, List.mem_flatMap]
    exact ⟨c, by rw [Option.mem_toList, toOption_eq_some_iff, hstep], ih (h.step hstep) hwalk (last_of_cons hlast)⟩
  | @matching items piece steps ps accepts admits rest ih =>
    obtain ⟨c, hstep, hwalk⟩ := Place.walk_cons_eq_ok_iff.1 hwalk
    rw [expandSteps, if_pos (Place.isDir_of_step hstep), List.mem_flatMap]
    refine ⟨c, List.mem_append.2 ?_, ih (h.step hstep) hwalk (last_of_cons hlast)⟩
    rcases admits with hname | ⟨hdot, hpiece⟩
    · refine .inr (mem_acceptedOf_iff.2 ⟨(Place.mem_children_iff h).2 ⟨piece, hname, hstep⟩, ?_⟩)
      rw [Place.fileName?_of_step hname hstep]
      exact accepts
    · exact .inl (mem_dotPlaces_iff.2 ⟨hdot, piece, hpiece, accepts, hstep⟩)
  | dirs ne_nil names =>
    rw [expandSteps, List.mem_filter]
    exact ⟨Place.mem_below_of_walk h ne_nil names hwalk, hlast.resolve_right (by simp)⟩
  | @anyDirs dirs step name steps ps names isName accepts rest ih =>
    rw [List.append_cons] at hwalk
    obtain ⟨c, hfront, hwalk⟩ := Place.walk_append_eq_ok_iff.1 hwalk
    have hnames : ∀ x ∈ dirs ++ [name], IsName x := by
      simpa [or_imp, forall_and] using ⟨names, isName⟩
    rw [expandSteps, List.mem_flatMap]
    refine ⟨c, mem_acceptedOf_iff.2 ⟨Place.mem_below_of_walk h (by simp) hnames hfront, ?_⟩,
      ih (h.foldlM_step hfront) hwalk (last_of_cons (last_of_cons hlast))⟩
    rw [Place.path_of_walk hfront, along_concat, isName.fileName?_join]
    exact accepts

end Glob

end GraphqlBuild
