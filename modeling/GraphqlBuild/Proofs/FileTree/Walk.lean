import GraphqlBuild.FileTree.Walk
import GraphqlBuild.Proofs.Path
/-!
# What a walk finds

A tree of files is well formed if the entries of each directory have names, all different (`FileTree.WellFormed`); then
a list of names leads to at most one place (`FileTree.get?`). A walk that refuses some directories finds a file exactly
if names lead to it and every directory on the way is entered (`FileTree.exists_file_mem_placesBelow_iff`).
-/

namespace GraphqlBuild

open GraphqlBuild.Path

namespace FileTree

/-- The entries of each directory have names, no two the same. -/
inductive WellFormed : FileTree → Prop
  | file (content : Option Text) : WellFormed (.file content)
  | dir {es : List (Text × FileTree)} (nodup : (es.map Prod.fst).Nodup) (names : ∀ e ∈ es, IsName e.1)
    (trees : ∀ e ∈ es, WellFormed e.2) : WellFormed (.dir es)

/-- What the names lead to, one directory after the other. -/
def get? : FileTree → List Text → Option FileTree
  | tree, [] => some tree
  | file _, _ :: _ => none
  | dir es, name :: names => (es.lookup name).bind fun entry => entry.get? names

@[simp] theorem get?_nil (tree : FileTree) : tree.get? [] = some tree := by
  cases tree <;> rfl

@[simp] theorem wellFormed_file (content : Option Text) : (file content).WellFormed := .file content

@[simp] theorem wellFormed_dir_iff {es : List (Text × FileTree)} :
    (dir es).WellFormed ↔ (es.map Prod.fst).Nodup ∧ ∀ e ∈ es, IsName e.1 ∧ e.2.WellFormed := by
  constructor
  · rintro (_ | ⟨nodup, names, trees⟩)
    exact ⟨nodup, fun e he => ⟨names e he, trees e he⟩⟩
  · rintro ⟨nodup, h⟩
    exact .dir nodup (fun e he => (h e he).1) fun e he => (h e he).2

theorem mem_of_lookup {es : List (Text × FileTree)} {name : Text} {entry : FileTree}
    (h : es.lookup name = some entry) : (name, entry) ∈ es := by
  obtain ⟨before, after, heq, -⟩ := List.lookup_eq_some_iff.1 h
  rw [heq]
  simp

theorem lookup_of_mem {es : List (Text × FileTree)} (hnodup : (es.map Prod.fst).Nodup) {name : Text}
    {entry : FileTree} (h : (name, entry) ∈ es) : es.lookup name = some entry := by
  induction es with
  | nil => cases h
  | cons e es ih =>
    rw [List.map_cons, List.nodup_cons] at hnodup
    rcases List.mem_cons.1 h with rfl | h
    · simp
    · have hne : name ≠ e.1 := fun heq => hnodup.1 (List.mem_map.2 ⟨(name, entry), h, heq⟩)
      have hfalse : (name == e.1) = false := by simpa using hne
      rw [List.lookup_cons, hfalse, ih hnodup.2 h]

namespace WellFormed

theorem of_lookup {es : List (Text × FileTree)} (h : WellFormed (.dir es)) {name : Text} {entry : FileTree}
    (hlookup : es.lookup name = some entry) : IsName name ∧ entry.WellFormed :=
  (wellFormed_dir_iff.1 h).2 _ (mem_of_lookup hlookup)

/-- Names that lead somewhere are names. -/
theorem isName_of_get? {tree : FileTree} (h : tree.WellFormed) {names : List Text} {found : FileTree}
    (hget : tree.get? names = some found) : ∀ name ∈ names, IsName name := by
  induction names generalizing tree with
  | nil => simp
  | cons name names ih =>
    cases tree with
    | file content => cases hget
    | dir es =>
      obtain ⟨entry, hentry, hrest⟩ := Option.bind_eq_some_iff.1 hget
      obtain ⟨hname, hwell⟩ := h.of_lookup hentry
      exact List.forall_mem_cons.2 ⟨hname, ih hwell hrest⟩

end WellFormed

/-! ## The walk -/

section Walk
variable {enter : Text → Bool}

theorem mem_placesOf_iff {q : Place} {path : Path} {above : List FileTree} {es : List (Text × FileTree)} :
    q ∈ placesOf enter path above es ↔ ∃ e ∈ es, (e.2.isDir && !enter e.1) = false ∧
      (q = ⟨join path e.1, e.2, above⟩ ∨ q ∈ placesBelow enter (join path e.1) above e.2) := by
  induction es with
  | nil => simp [placesOf]
  | cons e es ih =>
    obtain ⟨name, tree⟩ := e
    simp only [placesOf, List.mem_append, ih, List.mem_cons, exists_eq_or_imp]
    refine or_congr_left ?_
    by_cases hrefused : (tree.isDir && !enter name) = true
    · simp [hrefused]
    · rw [Bool.not_eq_true] at hrefused
      simp [hrefused]

/-- A file that is found is where names lead, through directories that are entered. -/
theorem exists_names_of_mem_placesBelow {tree : FileTree} (hwell : tree.WellFormed) {path : Path}
    {above : List FileTree} {q : Place} {content : Option Text} (h : q ∈ placesBelow enter path above tree)
    (hfile : q.tree = .file content) :
    ∃ dirs name, q.path = along path (dirs ++ [name]) ∧ tree.get? (dirs ++ [name]) = some (.file content) ∧
      ∀ d ∈ dirs, enter d = true := by
  induction hwell generalizing path above with
  | file => cases h
  | @dir es nodup names trees ih =>
    rw [placesBelow, mem_placesOf_iff] at h
    obtain ⟨⟨name, entry⟩, hmem, hentered, hq⟩ := h
    have hlookup := lookup_of_mem nodup hmem
    rcases hq with rfl | hq
    · simp only at hfile
      subst hfile
      exact ⟨[], name, rfl, by simp [get?, hlookup], by simp⟩
    · obtain ⟨dirs, last, hpath, hget, hdirs⟩ := ih _ hmem hq
      have hdir : entry.isDir = true := by
        cases entry with
        | file => cases hq
        | dir => rfl
      refine ⟨name :: dirs, last, hpath, ?_, ?_⟩
      · simpa [get?, hlookup] using hget
      · refine List.forall_mem_cons.2 ⟨?_, hdirs⟩
        simpa [hdir] using hentered

/-- Names that lead to a file through directories that are entered lead to a place that is found. -/
theorem exists_mem_placesBelow_of_names {tree : FileTree} {path : Path} {above : List FileTree} {dirs : List Text}
    {name : Text} {content : Option Text} (hget : tree.get? (dirs ++ [name]) = some (.file content))
    (hdirs : ∀ d ∈ dirs, enter d = true) :
    ∃ q ∈ placesBelow enter path above tree, q.path = along path (dirs ++ [name]) ∧ q.tree = .file content := by
  induction dirs generalizing tree path above with
  | nil =>
    cases tree with
    | file => cases hget
    | dir es =>
      obtain ⟨entry, hentry, hfound⟩ := Option.bind_eq_some_iff.1 hget
      obtain rfl : entry = .file content := by simpa using hfound
      refine ⟨⟨join path name, .file content, .dir es :: above⟩, ?_, rfl, rfl⟩
      rw [placesBelow, mem_placesOf_iff]
      exact ⟨_, mem_of_lookup hentry, rfl, .inl rfl⟩
  | cons d dirs ih =>
    cases tree with
    | file => cases hget
    | dir es =>
      obtain ⟨entry, hentry, hrest⟩ := Option.bind_eq_some_iff.1 hget
      obtain ⟨hd, hdirs⟩ := List.forall_mem_cons.1 hdirs
      obtain ⟨q, hq, hpath, hfile⟩ : ∃ q ∈ placesBelow enter (join path d) (.dir es :: above) entry,
          q.path = along (join path d) (dirs ++ [name]) ∧ q.tree = .file content := ih hrest hdirs
      refine ⟨q, ?_, hpath, hfile⟩
      rw [placesBelow, mem_placesOf_iff]
      exact ⟨_, mem_of_lookup hentry, by simp [hd], .inr hq⟩

/-- **The files that a walk finds**, by the names that lead to them. -/
theorem exists_file_mem_placesBelow_iff {tree : FileTree} (hwell : tree.WellFormed) {path p : Path}
    {above : List FileTree} {content : Option Text} :
    (∃ q ∈ placesBelow enter path above tree, q.path = p ∧ q.tree = .file content) ↔
      ∃ dirs name, p = along path (dirs ++ [name]) ∧ tree.get? (dirs ++ [name]) = some (.file content) ∧
        ∀ d ∈ dirs, enter d = true := by
  constructor
  · rintro ⟨q, hq, rfl, hfile⟩
    exact exists_names_of_mem_placesBelow hwell hq hfile
  · rintro ⟨dirs, name, rfl, hget, hdirs⟩
    exact exists_mem_placesBelow_of_names hget hdirs

end Walk

end FileTree

/-! ## Places of a workspace -/

/-- The place and the directories above it are well formed. -/
structure Place.WellFormed (p : Place) : Prop where
  tree : p.tree.WellFormed
  above : ∀ tree ∈ p.above, tree.WellFormed

theorem Place.WellFormed.step {p q : Place} (h : p.WellFormed) {piece : Text} (hstep : p.step piece = .ok q) :
    q.WellFormed := by
  obtain ⟨path, tree, above⟩ := p
  unfold Place.step at hstep
  cases tree with
  | file => cases hstep
  | dir es =>
    simp only at hstep
    split at hstep
    · cases hstep
      exact ⟨h.tree, h.above⟩
    · split at hstep
      · cases above with
        | nil =>
          cases hstep
          exact ⟨h.tree, h.above⟩
        | cons parent above =>
          cases hstep
          exact ⟨h.above parent List.mem_cons_self, fun t ht => h.above t (List.mem_cons_of_mem parent ht)⟩
      · cases hentry : es.lookup piece with
        | none =>
          rw [hentry] at hstep
          cases hstep
        | some entry =>
          rw [hentry] at hstep
          cases hstep
          exact ⟨(h.tree.of_lookup hentry).2, List.forall_mem_cons.2 ⟨h.tree, h.above⟩⟩

theorem Place.WellFormed.foldlM_step {pieces : List Text} {p q : Place} (h : p.WellFormed)
    (hwalk : pieces.foldlM Place.step p = .ok q) : q.WellFormed := by
  induction pieces generalizing p with
  | nil =>
    cases hwalk
    exact h
  | cons piece pieces ih =>
    rw [List.foldlM_cons] at hwalk
    cases hstep : p.step piece with
    | error failure =>
      rw [hstep] at hwalk
      cases hwalk
    | ok p' =>
      rw [hstep] at hwalk
      exact ih (h.step hstep) hwalk

/-- Every place of a well-formed tree is well formed. -/
theorem Workspace.wellFormed_of_at? {w : Workspace} (h : w.root.WellFormed) {p : Path} {place : Place}
    (hplace : w.at? p = .ok place) : place.WellFormed := by
  unfold Workspace.at? at hplace
  split at hplace
  · cases hplace
  · have htop : w.top.WellFormed := ⟨h, by simp [Workspace.top]⟩
    exact htop.foldlM_step hplace

end GraphqlBuild
