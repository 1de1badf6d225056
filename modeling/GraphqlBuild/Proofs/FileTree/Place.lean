import GraphqlBuild.Proofs.FileTree.Walk
import GraphqlBuild.Proofs.Path.Ancestors
/-!
# Where a path leads

A walk stands at the names that its moves lead to (`Place.StandsAt`), `..` taking back the last one. Along a path that
leads to a directory every beginning leads to one (`Workspace.Passes`), and then a name joined to a beginning leads to
what the tree holds under that name (`Workspace.hasFile_join_iff`), however the path is spelled.
-/

namespace GraphqlBuild

open GraphqlBuild.Path

/-! ## Names that moves lead to -/

/-- Where one move leads from the directory of these names. -/
def move (names : List Text) (piece : Text) : List Text :=
  if piece = ['.', '.'] then names.dropLast else names ++ [piece]

/-- Where the moves lead from the directory of these names. -/
def lead (names : List Text) (ms : List Text) : List Text := ms.foldl move names

@[simp] theorem lead_nil (names : List Text) : lead names [] = names := rfl

theorem lead_append (names ms ms' : List Text) : lead names (ms ++ ms') = lead (lead names ms) ms' :=
  List.foldl_append

theorem lead_concat (names ms : List Text) (piece : Text) :
    lead names (ms ++ [piece]) = move (lead names ms) piece := by
  rw [lead_append]
  rfl

@[simp] theorem lead_singleton (names : List Text) (piece : Text) : lead names [piece] = move names piece := rfl

theorem move_name {piece : Text} (h : piece ≠ ['.', '.']) (names : List Text) : move names piece = names ++ [piece] :=
  if_neg h

theorem move_up (names : List Text) : move names ['.', '.'] = names.dropLast := rfl

/-- Without a step up the moves lead down, to their own names. -/
theorem lead_of_forall_ne {ms : List Text} (h : ∀ m ∈ ms, m ≠ ['.', '.']) (names : List Text) :
    lead names ms = names ++ ms := by
  induction ms generalizing names with
  | nil => simp
  | cons m ms ih =>
    obtain ⟨hm, hms⟩ := List.forall_mem_cons.1 h
    rw [lead, List.foldl_cons, ← lead, move_name hm, ih hms]
    simp

theorem length_lead_le (names ms : List Text) : (lead names ms).length ≤ names.length + ms.length := by
  induction ms using List.reverseRecOn with
  | nil => simp
  | append_singleton ms m ih =>
    rw [lead_concat, move]
    split <;> simp <;> omega

theorem mem_lead {names ms : List Text} {x : Text} (h : x ∈ lead names ms) :
    x ∈ names ∨ x ∈ ms ∧ x ≠ ['.', '.'] := by
  induction ms using List.reverseRecOn with
  | nil => exact .inl h
  | append_singleton ms m ih =>
    have hearlier (h : x ∈ lead names ms) : x ∈ names ∨ x ∈ ms ++ [m] ∧ x ≠ ['.', '.'] :=
      (ih h).imp_right fun h => ⟨List.mem_append_left [m] h.1, h.2⟩
    rw [lead_concat] at h
    by_cases hm : m = ['.', '.']
    · rw [hm, move_up] at h
      exact hearlier (List.dropLast_subset _ h)
    · rw [move_name hm, List.mem_append, List.mem_singleton] at h
      rcases h with h | rfl
      · exact hearlier h
      · exact .inr ⟨by simp, hm⟩

/-- On the way down to a directory the moves pass every directory between. -/
theorem exists_prefix_lead {o e ms : List Text} (ho : o <+: e) (he : e <+: lead o ms) :
    ∃ ms', ms' <+: ms ∧ lead o ms' = e := by
  induction ms using List.reverseRecOn with
  | nil => exact ⟨[], List.prefix_rfl, ho.eq_of_length_le he.length_le⟩
  | append_singleton ms m ih =>
    have hearlier (h : e <+: lead o ms) : ∃ ms', ms' <+: ms ++ [m] ∧ lead o ms' = e := by
      obtain ⟨ms', hbegins, heq⟩ := ih h
      exact ⟨ms', hbegins.trans (List.prefix_append ms [m]), heq⟩
    rw [lead_concat] at he
    by_cases hm : m = ['.', '.']
    · rw [hm, move_up] at he
      exact hearlier (he.trans (List.dropLast_prefix _))
    · rw [move_name hm, List.prefix_concat_iff] at he
      rcases he with heq | he
      · exact ⟨ms ++ [m], List.prefix_rfl, by rw [lead_concat, move_name hm, heq]⟩
      · exact hearlier he

namespace FileTree

theorem isDir_iff {tree : FileTree} : tree.isDir = true ↔ ∃ es, tree = .dir es := by
  cases tree <;> simp [isDir]

theorem isDir_eq_false_iff {tree : FileTree} : tree.isDir = false ↔ ∃ content, tree = .file content := by
  cases tree <;> simp [isDir]

theorem get?_append (tree : FileTree) (names names' : List Text) :
    tree.get? (names ++ names') = (tree.get? names).bind fun found => found.get? names' := by
  induction names generalizing tree with
  | nil => simp
  | cons name names ih =>
    cases tree with
    | file content => rfl
    | dir es =>
      rw [List.cons_append, get?, get?, Option.bind_assoc]
      exact congrArg _ (funext fun entry => ih entry)

theorem get?_concat_of_dir {tree : FileTree} {names : List Text} {es : List (Text × FileTree)}
    (h : tree.get? names = some (.dir es)) (name : Text) : tree.get? (names ++ [name]) = es.lookup name := by
  rw [get?_append, h, Option.bind_some, get?]
  simp

end FileTree

/-! ## Where a walk stands -/

namespace Place
variable {p q : Place} {piece : Text} {ps ps' : List Text}

/-- Only from a directory does a piece lead on. -/
theorem isDir_of_step (h : p.step piece = .ok q) : p.tree.isDir = true := by
  unfold Place.step at h
  cases htree : p.tree with
  | file content =>
    rw [htree] at h
    cases h
  | dir es => rfl

theorem walk_append_eq_ok_iff : (ps ++ ps').foldlM Place.step p = .ok q ↔
    ∃ c, ps.foldlM Place.step p = .ok c ∧ ps'.foldlM Place.step c = .ok q := by
  rw [List.foldlM_append]
  cases hfront : ps.foldlM Place.step p with
  | error failure => simp [bind, Except.bind]
  | ok c => simp [bind, Except.bind]

theorem walk_singleton (p : Place) (piece : Text) : [piece].foldlM Place.step p = p.step piece := by
  rw [List.foldlM_cons]
  exact bind_pure (p.step piece)

theorem walk_cons_eq_ok_iff : (piece :: ps).foldlM Place.step p = .ok q ↔
    ∃ c, p.step piece = .ok c ∧ ps.foldlM Place.step c = .ok q := by
  rw [← List.singleton_append, walk_append_eq_ok_iff, walk_singleton]

theorem walk_concat_eq_ok_iff : (ps ++ [piece]).foldlM Place.step p = .ok q ↔
    ∃ c, ps.foldlM Place.step p = .ok c ∧ c.step piece = .ok q := by
  simp only [walk_append_eq_ok_iff, walk_singleton]

end Place

/-- A walk from the root has come to these names, whatever its path looks like. -/
inductive Place.StandsAt (root : FileTree) : List Text → Place → Prop
  | top (path : Path) : StandsAt root [] ⟨path, root, []⟩
  | under {names : List Text} {p : Place} {es : List (Text × FileTree)} {name : Text} {entry : FileTree} (path : Path)
      (around : StandsAt root names p) (dir : p.tree = .dir es) (found : es.lookup name = some entry) :
      StandsAt root (names ++ [name]) ⟨path, entry, p.tree :: p.above⟩

namespace Place.StandsAt
variable {root : FileTree} {names : List Text} {p q : Place}

theorem get?_eq (h : StandsAt root names p) : root.get? names = some p.tree := by
  induction h with
  | top => simp
  | under path around dir found ih => rw [FileTree.get?_concat_of_dir (ih.trans (congrArg some dir)), found]

theorem withPath (h : StandsAt root names p) (path : Path) : StandsAt root names { p with path } := by
  cases h with
  | top => exact .top path
  | under _ around dir found => exact .under path around dir found

/-- One piece of a path, from where the walk stands. -/
theorem step (h : StandsAt root names p) {piece : Text} (hstep : p.step piece = .ok q) :
    StandsAt root (lead names (movesOf [piece])) q := by
  obtain ⟨path, tree, above⟩ := p
  unfold Place.step at hstep
  cases tree with
  | file => cases hstep
  | dir es =>
    simp only at hstep
    split at hstep
    · rename_i hidle
      cases hstep
      rw [movesOf_cons_of_idle hidle, movesOf_nil, lead_nil]
      exact h.withPath _
    · rename_i hidle
      rw [Bool.not_eq_true] at hidle
      rw [movesOf_cons_of_move hidle, movesOf_nil, lead_singleton]
      split at hstep
      · rename_i hup
        subst hup
        rw [move_up]
        cases h with
        | top =>
          cases hstep
          exact .top _
        | under _ around dir found =>
          cases hstep
          rw [List.dropLast_concat]
          exact around.withPath _
      · rename_i hup
        rw [move_name hup]
        split at hstep
        · cases hstep
        · rename_i entry hentry
          cases hstep
          exact .under _ h rfl hentry

/-- A piece is followed if it leads somewhere. -/
theorem exists_step (h : StandsAt root names p) (hdir : p.tree.isDir = true) {piece : Text} {found : FileTree}
    (hfound : root.get? (lead names (movesOf [piece])) = some found) : ∃ q, p.step piece = .ok q := by
  have hget := h.get?_eq
  obtain ⟨path, tree, above⟩ := p
  unfold Place.step
  cases tree with
  | file => cases hdir
  | dir es =>
    simp only
    split
    · exact ⟨_, rfl⟩
    · rename_i hidle
      rw [Bool.not_eq_true] at hidle
      split
      · cases above with
        | nil => exact ⟨_, rfl⟩
        | cons parent above => exact ⟨_, rfl⟩
      · rename_i hup
        rw [movesOf_cons_of_move hidle, movesOf_nil, lead_singleton, move_name hup,
          FileTree.get?_concat_of_dir hget] at hfound
        rw [hfound]
        exact ⟨_, rfl⟩

theorem walk (h : StandsAt root names p) {ps : List Text} (hwalk : ps.foldlM Place.step p = .ok q) :
    StandsAt root (lead names (movesOf ps)) q := by
  induction ps generalizing names p with
  | nil =>
    cases hwalk
    exact h
  | cons piece ps ih =>
    obtain ⟨c, hstep, hwalk⟩ := Place.walk_cons_eq_ok_iff.1 hwalk
    rw [← List.singleton_append, movesOf_append, lead_append]
    exact ih (h.step hstep) hwalk

end Place.StandsAt

/-! ## Paths to directories -/

/-- Wherever the moves come by is a directory. -/
def FileTree.Passes (root : FileTree) (ms : List Text) : Prop :=
  ∀ ms', ms' <+: ms → ∃ es, root.get? (lead [] ms') = some (.dir es)

namespace FileTree.Passes
variable {root : FileTree} {ms ms' ps : List Text} {p q : Place}

theorem beginning (h : root.Passes ms) (hbegins : ms' <+: ms) : root.Passes ms' :=
  fun _ hms => h _ (hms.trans hbegins)

theorem concat (h : root.Passes ms) {piece : Text} {es : List (Text × FileTree)}
    (hdir : root.get? (lead [] (ms ++ [piece])) = some (.dir es)) : root.Passes (ms ++ [piece]) := by
  intro ms' hms
  rcases List.prefix_concat_iff.1 hms with rfl | hms
  · exact ⟨es, hdir⟩
  · exact h ms' hms

theorem isDir_of_standsAt (h : root.Passes ms) {names : List Text} (hlead : lead [] ms = names)
    (hstands : Place.StandsAt root names p) : p.tree.isDir = true := by
  obtain ⟨es, hes⟩ := h _ List.prefix_rfl
  rw [hlead, hstands.get?_eq] at hes
  rw [Option.some.inj hes]
  rfl

/-- A walk to a directory passes only directories. -/
theorem of_walk (htop : Place.StandsAt root [] p) (hwalk : ps.foldlM Place.step p = .ok q)
    (hdir : q.tree.isDir = true) : root.Passes (movesOf ps) := by
  induction ps using List.reverseRecOn generalizing q with
  | nil =>
    intro ms' hms
    obtain rfl := List.prefix_nil.1 hms
    cases hwalk
    obtain ⟨es, hes⟩ := isDir_iff.1 hdir
    exact ⟨es, by rw [lead_nil, htop.get?_eq, hes]⟩
  | append_singleton ps piece ih =>
    have hget := (htop.walk hwalk).get?_eq
    obtain ⟨c, hfront, hstep⟩ := Place.walk_concat_eq_ok_iff.1 hwalk
    have hpasses := ih hfront (Place.isDir_of_step hstep)
    cases hidle : isIdle piece with
    | true => simpa [hidle] using hpasses
    | false =>
      obtain ⟨es, hes⟩ := isDir_iff.1 hdir
      rw [movesOf_append, movesOf_cons_of_move hidle, movesOf_nil, hes] at hget
      rw [movesOf_append, movesOf_cons_of_move hidle, movesOf_nil]
      exact hpasses.concat hget

/-- Moves that only pass directories can be walked, with idle pieces anywhere between. -/
theorem exists_walk (htop : Place.StandsAt root [] p) (h : root.Passes (movesOf ps)) :
    ∃ q, ps.foldlM Place.step p = .ok q := by
  induction ps using List.reverseRecOn with
  | nil => exact ⟨p, rfl⟩
  | append_singleton ps piece ih =>
    obtain ⟨es, hes⟩ := h _ List.prefix_rfl
    rw [movesOf_append, lead_append] at hes
    have hfront : root.Passes (movesOf ps) := h.beginning (by simp)
    obtain ⟨p', hp'⟩ := ih hfront
    have hstands := htop.walk hp'
    obtain ⟨q, hq⟩ := hstands.exists_step (hfront.isDir_of_standsAt rfl hstands) hes
    exact ⟨q, Place.walk_concat_eq_ok_iff.2 ⟨p', hp', hq⟩⟩

/-- The names that lead to something pass only directories. -/
theorem of_get? {names : List Text} {name : Text} {found : FileTree} (hup : ∀ x ∈ names, x ≠ ['.', '.'])
    (hfound : root.get? (names ++ [name]) = some found) : root.Passes names := by
  rintro front ⟨rest, rfl⟩
  rw [lead_of_forall_ne fun x hx => hup x (List.mem_append_left rest hx), List.nil_append]
  rw [List.append_assoc, get?_append] at hfound
  obtain ⟨tree, htree, hrest⟩ := Option.bind_eq_some_iff.1 hfound
  cases tree with
  | dir es => exact ⟨es, htree⟩
  | file content =>
    obtain ⟨x, xs, hx⟩ := List.exists_cons_of_ne_nil (show rest ++ [name] ≠ [] by simp)
    rw [hx] at hrest
    cases hrest

/-- One more name leads to what the tree holds under it. -/
theorem exists_walk_concat (htop : Place.StandsAt root [] p) (h : root.Passes (movesOf ps)) {name : Text}
    (hname : IsName name) {found : FileTree} (hfound : root.get? (lead [] (movesOf ps) ++ [name]) = some found) :
    ∃ q, (ps ++ [name]).foldlM Place.step p = .ok q ∧ q.tree = found := by
  obtain ⟨p', hp'⟩ := h.exists_walk htop
  have hstands := htop.walk hp'
  rw [← move_name hname.ne_up, ← lead_singleton, ← hname.movesOf_singleton] at hfound
  obtain ⟨q, hstep⟩ := hstands.exists_step (h.isDir_of_standsAt rfl hstands) hfound
  have hget := (hstands.step hstep).get?_eq
  rw [hfound] at hget
  exact ⟨q, Place.walk_concat_eq_ok_iff.2 ⟨p', hp', hstep⟩, (Option.some.inj hget).symm⟩

end FileTree.Passes

/-! ## Paths of a workspace -/

namespace Workspace
variable {w : Workspace}

/-- A directory is at the path. -/
def HasDirectory (w : Workspace) (p : Path) : Prop := ∃ place, w.at? p = .ok place ∧ place.tree.isDir = true

theorem namesTo_eq (w : Workspace) (p : Path) : w.namesTo p = lead [] (moves (join w.current p)) := by
  rw [lead, moves, movesOf, List.foldl_filter]
  unfold namesTo move
  congr 1
  funext names piece
  cases isIdle piece <;> simp

theorem namesTo_join {name : Text} (h : IsName name) (p : Path) : w.namesTo (join p name) = w.namesTo p ++ [name] := by
  rw [namesTo_eq, h.moves_join_join, lead_concat, move_name h.ne_up, ← namesTo_eq]

theorem hasFile_iff {p : Path} :
    w.hasFile p = true ↔ ∃ place content, w.at? p = .ok place ∧ place.tree = .file content := by
  rw [hasFile]
  cases w.at? p with
  | error failure => simp [Except.toOption]
  | ok place => simp [Except.toOption, FileTree.isDir_eq_false_iff]

section
variable (habsolute : isAbsolute w.current = true)
include habsolute

/-- The walk along a path stands at the names that the path leads to. -/
theorem standsAt_of_at? {p : Path} {place : Place} (h : w.at? p = .ok place) :
    place.StandsAt w.root (w.namesTo p) ∧
      (place.tree.isDir = true → w.root.Passes (moves (join w.current p))) := by
  unfold at? at h
  split at h
  · cases h
  · have hmoves := movesOf_tail_pieces (isAbsolute_join habsolute p)
    have htop : w.top.StandsAt w.root [] := .top _
    rw [namesTo_eq, ← hmoves]
    exact ⟨htop.walk h, FileTree.Passes.of_walk htop h⟩

theorem HasDirectory.passes {p : Path} (h : w.HasDirectory p) : w.root.Passes (moves (join w.current p)) := by
  obtain ⟨place, hplace, hdir⟩ := h
  exact (standsAt_of_at? habsolute hplace).2 hdir

theorem hasDirectory_iff {p : Path} (hne : p ≠ []) :
    w.HasDirectory p ↔ w.root.Passes (moves (join w.current p)) := by
  refine ⟨fun h => h.passes habsolute, fun hpasses => ?_⟩
  have htop : w.top.StandsAt w.root [] := .top _
  have hmoves := movesOf_tail_pieces (isAbsolute_join habsolute p)
  obtain ⟨place, hwalk⟩ := FileTree.Passes.exists_walk htop (hmoves ▸ hpasses)
  have hplace : w.at? p = .ok place := by
    unfold at?
    rw [if_neg (by simpa using hne), hwalk]
  exact ⟨place, hplace, hpasses.isDir_of_standsAt (w.namesTo_eq p).symm (standsAt_of_at? habsolute hplace).1⟩

/-- The walk along a path with a name joined to it ends with that name. -/
theorem exists_at?_join (p : Path) {name : Text} (hname : IsName name) : ∃ init,
    movesOf init = moves (join w.current p) ∧ w.at? (join p name) = (init ++ [name]).foldlM Place.step w.top := by
  obtain ⟨init, hpieces, hmoves⟩ := hname.exists_tail_pieces_join_join habsolute p
  have hne : join p name ≠ [] := by
    intro hnil
    have hfile := hname.fileName?_join p
    rw [hnil] at hfile
    cases hfile
  refine ⟨init, hmoves, ?_⟩
  unfold at?
  rw [if_neg (by simpa using hne), hpieces]

/-- **A name joined to a path** leads to what the tree holds under that name, if the path passes only directories. -/
theorem hasFile_join_iff {p : Path} (hpasses : w.root.Passes (moves (join w.current p))) {name : Text}
    (hname : IsName name) : w.hasFile (join p name) = true ↔
      ∃ content, w.root.get? (w.namesTo p ++ [name]) = some (.file content) := by
  rw [hasFile_iff]
  constructor
  · rintro ⟨place, content, hplace, htree⟩
    have hget := (standsAt_of_at? habsolute hplace).1.get?_eq
    exact ⟨content, by rw [← namesTo_join hname, hget, htree]⟩
  · rintro ⟨content, hcontent⟩
    obtain ⟨init, hmoves, hwalk⟩ := exists_at?_join habsolute p hname
    rw [namesTo_eq, ← hmoves] at hcontent
    obtain ⟨place, hplace, htree⟩ := FileTree.Passes.exists_walk_concat (.top _) (hmoves ▸ hpasses) hname hcontent
    exact ⟨place, content, hwalk.trans hplace, htree⟩

end

end Workspace

end GraphqlBuild
