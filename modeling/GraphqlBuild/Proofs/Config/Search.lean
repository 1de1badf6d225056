import GraphqlBuild.Config.File
import GraphqlBuild.Proofs.FileTree.Full
import GraphqlBuild.Proofs.FileTree.Place
import Mathlib.Data.List.Infix
/-!
# The search for a configuration file

The search goes back along the path as it is spelled: it takes the last directory the path passes that holds a
configuration, and there the preferred one (`Workspace.configPath?_eq_none_iff`, `Workspace.configPath?_eq_some_iff`).
These are the directories around the one that the path leads to, the nearest first, exactly if no step of the path
leaves them (`Workspace.findsNearest_iff`). Else a configuration that lies beside the way counts as well: from `a/../b`
the search comes through `a` (`Workspace.configPath?_beside`).
-/

namespace GraphqlBuild

open GraphqlBuild.Path

/-! ## Configurations in a directory -/

/-- A configuration file is in the directory of these names. -/
def HoldsConfig (root : FileTree) (dir : List Text) : Prop :=
  ∃ name ∈ configNames, ∃ content, root.get? (dir ++ [name]) = some (.file content)

/-- The configuration file of that name is in the directory, and none of a preferred name. -/
def IsPreferredConfig (root : FileTree) (dir : List Text) (name : Text) : Prop :=
  ∃ better worse, configNames = better ++ name :: worse ∧
    (∃ content, root.get? (dir ++ [name]) = some (.file content)) ∧
    ∀ name' ∈ better, ∀ content, root.get? (dir ++ [name']) ≠ some (.file content)

theorem isName_of_mem_configNames : ∀ name ∈ configNames, IsName name := by decide

namespace IsPreferredConfig
variable {root : FileTree} {dir : List Text} {name : Text} (h : IsPreferredConfig root dir name)
include h

theorem exists_file : ∃ content, root.get? (dir ++ [name]) = some (.file content) := by
  obtain ⟨-, -, -, hfile, -⟩ := h
  exact hfile

theorem holdsConfig : HoldsConfig root dir := by
  obtain ⟨better, worse, hnames, hfile, -⟩ := h
  exact ⟨name, by simp [hnames], hfile⟩

theorem isName : IsName name := by
  obtain ⟨better, worse, hnames, -⟩ := h
  exact isName_of_mem_configNames name (by simp [hnames])

end IsPreferredConfig

namespace Workspace
variable {w : Workspace} {start : Path}

/-! ## What the search finds -/

/-- The candidate that the search takes in one directory. -/
def configIn? (w : Workspace) (dir : Path) : Option Path := (configNames.map (join dir)).find? w.hasFile

theorem configPath?_eq_findSome? (w : Workspace) (start : Path) :
    w.configPath? start = (ancestors start).findSome? w.configIn? := List.find?_flatMap

section
variable (habsolute : isAbsolute w.current = true)
include habsolute

section
variable {dir : Path} (hpasses : w.root.Passes (moves (join w.current dir)))
include hpasses

theorem configIn?_eq_none_iff : w.configIn? dir = none ↔ ¬ HoldsConfig w.root (w.namesTo dir) := by
  rw [configIn?, List.find?_eq_none, HoldsConfig]
  simp only [List.forall_mem_map, not_exists, not_and]
  refine forall₂_congr fun name hname => ?_
  rw [w.hasFile_join_iff habsolute hpasses (isName_of_mem_configNames name hname), not_exists]

theorem configIn?_eq_some_iff {p : Path} : w.configIn? dir = some p ↔
    ∃ name, IsPreferredConfig w.root (w.namesTo dir) name ∧ p = join dir name := by
  have hfile (name : Text) (hname : name ∈ configNames) := w.hasFile_join_iff habsolute hpasses
    (isName_of_mem_configNames name hname)
  rw [configIn?, List.find?_map, Option.map_eq_some_iff]
  simp only [List.find?_eq_some_iff_append, Function.comp_apply, Bool.not_eq_true', IsPreferredConfig]
  constructor
  · rintro ⟨name, ⟨hfound, better, worse, hnames, hbetter⟩, rfl⟩
    refine ⟨name, ⟨better, worse, hnames, (hfile name (by simp [hnames])).1 hfound,
      fun name' hname' content hget => ?_⟩, rfl⟩
    have := (hfile name' (by simp [hnames, hname'])).2 ⟨content, hget⟩
    simp [hbetter name' hname'] at this
  · rintro ⟨name, ⟨better, worse, hnames, hget, hbetter⟩, rfl⟩
    refine ⟨name, ⟨(hfile name (by simp [hnames])).2 hget, better, worse, hnames, fun name' hname' => ?_⟩, rfl⟩
    rw [Bool.eq_false_iff, Ne, hfile name' (by simp [hnames, hname'])]
    rintro ⟨content, hget'⟩
    exact hbetter name' hname' content hget'

end

variable (hstart : w.HasDirectory start)
include hstart

theorem passes_of_mem_ancestors {a : Path} (ha : a ∈ ancestors start) : w.root.Passes (moves (join w.current a)) :=
  (hstart.passes habsolute).beginning (moves_join_of_mem_ancestors ha w.current)

theorem configPath?_eq_none_iff :
    w.configPath? start = none ↔ ∀ a ∈ ancestors start, ¬ HoldsConfig w.root (w.namesTo a) := by
  rw [configPath?_eq_findSome?, List.findSome?_eq_none_iff]
  exact forall₂_congr fun a ha => configIn?_eq_none_iff habsolute (passes_of_mem_ancestors habsolute hstart ha)

/-- **The search goes back along the path** to the last directory on it that holds a configuration. -/
theorem configPath?_eq_some_iff {p : Path} : w.configPath? start = some p ↔
    ∃ nearer a further name, ancestors start = nearer ++ a :: further ∧
      (∀ b ∈ nearer, ¬ HoldsConfig w.root (w.namesTo b)) ∧ IsPreferredConfig w.root (w.namesTo a) name ∧
      p = join a name := by
  rw [configPath?_eq_findSome?, List.findSome?_eq_some_iff]
  constructor
  · rintro ⟨nearer, a, further, hall, hfound, hnone⟩
    have hpasses {b : Path} (hb : b ∈ ancestors start) := passes_of_mem_ancestors habsolute hstart hb
    obtain ⟨name, hpreferred, hp⟩ := (configIn?_eq_some_iff habsolute (hpasses (by simp [hall]))).1 hfound
    exact ⟨nearer, a, further, name, hall,
      fun b hb => (configIn?_eq_none_iff habsolute (hpasses (by simp [hall, hb]))).1 (hnone b hb), hpreferred, hp⟩
  · rintro ⟨nearer, a, further, name, hall, hnone, hpreferred, hp⟩
    have hpasses {b : Path} (hb : b ∈ ancestors start) := passes_of_mem_ancestors habsolute hstart hb
    exact ⟨nearer, a, further, hall,
      (configIn?_eq_some_iff habsolute (hpasses (by simp [hall]))).2 ⟨name, hpreferred, hp⟩,
      fun b hb => (configIn?_eq_none_iff habsolute (hpasses (by simp [hall, hb]))).2 (hnone b hb)⟩

end

/-! ## The directories on the way -/

/-- Where the path begins: at the root or in the working directory. -/
def beginningOf (w : Workspace) (p : Path) : List Text := if isAbsolute p then [] else w.namesTo []

theorem namesTo_eq_lead (w : Workspace) (p : Path) : w.namesTo p = lead (w.beginningOf p) (moves p) := by
  rw [namesTo_eq, beginningOf]
  cases hp : isAbsolute p with
  | true => rw [join_of_isAbsolute hp, if_pos rfl]
  | false => rw [if_neg (by simp), namesTo_eq, moves_join hp, moves_join rfl, moves_nil, List.append_nil, lead_append]

theorem beginningOf_of_mem_ancestors {a : Path} (ha : a ∈ ancestors start) :
    w.beginningOf a = w.beginningOf start := by
  rw [beginningOf, beginningOf, (of_mem_ancestors ha).2]

/-- Between a directory on the way and the end of the way, every directory is passed later. -/
theorem exists_ancestor_between {a : Path} (ha : a ∈ ancestors start) {dir : List Text} (hfrom : w.namesTo a <+: dir)
    (hto : dir <+: w.namesTo start) : ∃ b ∈ ancestors start, w.namesTo b = dir ∧ moves a <+: moves b := by
  obtain ⟨rest, hrest⟩ := (of_mem_ancestors ha).1
  rw [namesTo_eq_lead, beginningOf_of_mem_ancestors ha] at hfrom
  rw [namesTo_eq_lead, ← hrest, lead_append] at hto
  obtain ⟨ms, hms, hdir⟩ := exists_prefix_lead hfrom hto
  have hbegins : moves a ++ ms <+: moves start := hrest ▸ (List.prefix_append_right_inj _).2 hms
  obtain ⟨b, hb, hmoves⟩ := exists_ancestor_moves_eq hbegins
  refine ⟨b, hb, ?_, hmoves ▸ List.prefix_append _ _⟩
  rw [namesTo_eq_lead, beginningOf_of_mem_ancestors hb, hmoves, lead_append, hdir]

/-- The path begins at one of its ancestors. -/
theorem exists_ancestor_beginning (w : Workspace) (start : Path) :
    ∃ a ∈ ancestors start, w.namesTo a = w.beginningOf start := by
  obtain ⟨a, ha, hmoves⟩ := exists_ancestor_moves_eq (p := start) List.nil_prefix
  exact ⟨a, ha, by rw [namesTo_eq_lead, beginningOf_of_mem_ancestors ha, hmoves, lead_nil]⟩

/-! ## The nearest configuration -/

/-- The search finds a configuration exactly if the directory at the path holds one, or one around it that is not
above the beginning of the path; and then it finds the preferred one of the nearest such directory. -/
structure FindsNearest (w : Workspace) (start : Path) : Prop where
  none_iff : w.configPath? start = none ↔ ∀ dir, w.beginningOf start <+: dir ∨ dir = w.namesTo start →
    dir <+: w.namesTo start → ¬ HoldsConfig w.root dir
  of_some : ∀ p, w.configPath? start = some p → w.hasFile p = true ∧ ∃ dir name, w.namesTo p = dir ++ [name] ∧
    dir <+: w.namesTo start ∧ IsPreferredConfig w.root dir name ∧
    ∀ nearer, dir <+: nearer → nearer <+: w.namesTo start → HoldsConfig w.root nearer → nearer = dir

/-- The path never leaves the directories between its beginning and its end. -/
def StaysBetween (w : Workspace) (start : Path) : Prop :=
  ∀ a ∈ ancestors start, w.beginningOf start <+: w.namesTo a ∧ w.namesTo a <+: w.namesTo start

theorem findsNearest_of_staysBetween (habsolute : isAbsolute w.current = true) (hstart : w.HasDirectory start)
    (h : w.StaysBetween start) : w.FindsNearest start := by
  constructor
  · rw [configPath?_eq_none_iff habsolute hstart]
    constructor
    · intro hnone dir hfrom hto
      rcases hfrom with hfrom | rfl
      · obtain ⟨a, ha, hbegin⟩ := w.exists_ancestor_beginning start
        obtain ⟨b, hb, rfl, -⟩ := exists_ancestor_between ha (hbegin ▸ hfrom) hto
        exact hnone b hb
      · exact hnone start (mem_ancestors_self start)
    · exact fun hnone a ha => hnone _ (.inl (h a ha).1) (h a ha).2
  · intro p hp
    obtain ⟨nearer, a, further, name, hall, hnone, hpreferred, rfl⟩ := (configPath?_eq_some_iff habsolute hstart).1 hp
    have ha : a ∈ ancestors start := by simp [hall]
    have hname := hpreferred.isName
    have hpasses := passes_of_mem_ancestors habsolute hstart ha
    have hfile := (w.hasFile_join_iff habsolute hpasses hname).2 hpreferred.exists_file
    refine ⟨hfile, w.namesTo a, name, namesTo_join hname a, (h a ha).2, hpreferred, fun dir hfrom hto hholds => ?_⟩
    obtain ⟨b, hb, rfl, hmoves⟩ := exists_ancestor_between ha hfrom hto
    rw [hall, List.mem_append, List.mem_cons] at hb
    rcases hb with hb | rfl | hb
    · exact absurd hholds (hnone b hb)
    · rfl
    · -- a directory passed earlier has no more moves, so it is the same
      have hsorted := pairwise_ancestors start
      rw [hall, List.pairwise_append] at hsorted
      have hshorter := List.rel_of_pairwise_cons hsorted.2.1 hb
      have hsame : moves b = moves a := hshorter.eq_of_length_le hmoves.length_le
      have hbmem : b ∈ ancestors start := by simp [hall, hb]
      rw [namesTo_eq_lead, namesTo_eq_lead, hsame, beginningOf_of_mem_ancestors hbmem, beginningOf_of_mem_ancestors ha]

/-! ## Configurations beside the way -/

section
variable {base : List Text} (hbase : ∀ name ∈ base, IsName name) (hcurrent : w.current = along ['/'] base)
include hbase hcurrent

theorem beginningOf_eq_of_relative (hrelative : isAbsolute start = false) : w.beginningOf start = base := by
  have hnames : ∀ name ∈ base, name ≠ ['.', '.'] := fun name hname => (hbase name hname).ne_up
  rw [beginningOf, hrelative, if_neg (by simp), namesTo_eq, moves_join rfl, moves_nil, List.append_nil, hcurrent,
    moves_along hbase, lead_of_forall_ne hnames, List.nil_append]

/-- Whatever the whole walk comes by lies on the way to an ancestor of the path. -/
theorem exists_ancestor_below {ms : List Text} (h : ms <+: moves (join w.current start)) :
    ∃ a ∈ ancestors start, lead [] ms <+: w.namesTo a := by
  cases hstart : isAbsolute start with
  | true =>
    rw [join_of_isAbsolute hstart] at h
    obtain ⟨a, ha, rfl⟩ := exists_ancestor_moves_eq h
    have hnames : w.namesTo a = lead [] (moves a) := by
      rw [namesTo_eq, join_of_isAbsolute ((of_mem_ancestors ha).2.trans hstart)]
    exact ⟨a, ha, hnames ▸ List.prefix_rfl⟩
  | false =>
    have hmoves : moves w.current = base := by rw [hcurrent, moves_along hbase]
    have hnames : ∀ name ∈ base, name ≠ ['.', '.'] := fun name hname => (hbase name hname).ne_up
    rw [moves_join hstart, hmoves] at h
    rcases List.prefix_or_prefix_of_prefix h (List.prefix_append base _) with hshort | ⟨rest, rfl⟩
    · obtain ⟨a, ha, hbegin⟩ := w.exists_ancestor_beginning start
      refine ⟨a, ha, ?_⟩
      rw [hbegin, beginningOf_eq_of_relative hbase hcurrent hstart,
        lead_of_forall_ne fun m hm => hnames m (hshort.mem hm)]
      exact hshort
    · obtain ⟨a, ha, rfl⟩ := exists_ancestor_moves_eq ((List.prefix_append_right_inj base).1 h)
      have hlead : w.namesTo a = lead [] (base ++ moves a) := by
        rw [namesTo_eq, moves_join ((of_mem_ancestors ha).2.trans hstart), hmoves]
      exact ⟨a, ha, hlead ▸ List.prefix_rfl⟩

/-- A tree in which the path passes only directories, and in which no directory but that of `dir` holds a
configuration. -/
theorem exists_root_holdsConfig {dir : List Text} {name : Text} (hconfig : name ∈ configNames)
    (hdir : ∃ a ∈ ancestors start, w.namesTo a = dir)
    (hclear : ∀ a ∈ ancestors start, ¬ dir ++ [name] <+: w.namesTo a) :
    ∃ root : FileTree, root.WellFormed ∧ root.Passes (moves (join w.current start)) ∧
      ∀ e, HoldsConfig root e ↔ e = dir := by
  have hnames {ms : List Text} (hms : ms <+: moves (join w.current start)) : ∀ x ∈ lead [] ms, IsName x := by
    intro x hx
    rcases mem_lead hx with hx | ⟨hx, hup⟩
    · cases hx
    · exact (isName_or_eq_up_of_mem_moves (hms.mem hx)).resolve_right hup
  have hfileNames : ∀ x ∈ dir ++ [name], IsName x := by
    obtain ⟨a, ha, rfl⟩ := hdir
    rw [namesTo_eq, List.forall_mem_append, List.forall_mem_singleton]
    exact ⟨hnames (moves_join_of_mem_ancestors ha w.current), isName_of_mem_configNames name hconfig⟩
  have hway {ms : List Text} (hms : ms <+: moves (join w.current start)) : ¬ dir ++ [name] <+: lead [] ms := by
    obtain ⟨a, ha, hbegins⟩ := exists_ancestor_below hbase hcurrent hms
    exact fun hbelow => hclear a ha (hbelow.trans hbegins)
  obtain ⟨root, hroot, hfile, hpasses, honly⟩ := FileTree.exists_wellFormed [dir ++ [name]]
    ((moves (join w.current start)).inits.map (lead [])) (by simp)
    (by simpa using ⟨by simpa using hfileNames, fun ms hms => hnames hms⟩) (by simp)
    (by simpa using fun ms hms => hway hms)
  refine ⟨root, hroot, fun ms hms => hpasses _ (List.mem_map_of_mem ((List.mem_inits _ _).2 hms)), fun e => ⟨?_, ?_⟩⟩
  · rintro ⟨name', -, content, hget⟩
    have hsame := List.mem_singleton.1 (honly _ _ hget)
    exact (List.append_inj' hsame rfl).1
  · rintro rfl
    exact ⟨name, hconfig, some [], hfile _ (by simp)⟩

/-- A tree in which only one directory on the way holds a configuration, if no deeper one is off the way. -/
theorem exists_root_of_deeper (hne : start ≠ []) {a : Path} (ha : a ∈ ancestors start)
    (hdeeper : ∀ b ∈ ancestors start, (w.namesTo a).length < (w.namesTo b).length → w.namesTo b <+: w.namesTo start) :
    ∃ root : FileTree, root.WellFormed ∧ ({ w with root } : Workspace).HasDirectory start ∧
      (∀ e, HoldsConfig root e ↔ e = w.namesTo a) ∧ ({ w with root } : Workspace).configPath? start ≠ none := by
  -- one of two names of configurations is not that of the next directory towards the end
  obtain ⟨name, hconfig, hnext⟩ : ∃ name ∈ configNames, ¬ w.namesTo a ++ [name] <+: w.namesTo start := by
    by_contra hall
    push Not at hall
    have hfirst := hall "graphql-tag.config.yml" (by decide)
    have hsecond := hall "graphql-tag.config.yaml" (by decide)
    have heq := (List.prefix_of_prefix_length_le hfirst hsecond (by simp)).eq_of_length (by simp)
    exact absurd (List.append_cancel_left heq) (by decide)
  have hclear : ∀ b ∈ ancestors start, ¬ w.namesTo a ++ [name] <+: w.namesTo b := by
    intro b hb hbelow
    have hlength := hbelow.length_le
    simp only [List.length_append, List.length_singleton] at hlength
    exact hnext (hbelow.trans (hdeeper b hb (by omega)))
  obtain ⟨root, hwell, hpasses, hholds⟩ := exists_root_holdsConfig hbase hcurrent hconfig ⟨a, ha, rfl⟩ hclear
  have habsolute : isAbsolute ({ w with root } : Workspace).current = true := hcurrent ▸ isAbsolute_along base
  have hdirectory := (hasDirectory_iff (w := { w with root }) habsolute hne).2 hpasses
  refine ⟨root, hwell, hdirectory, hholds, ?_⟩
  rw [Ne, configPath?_eq_none_iff habsolute hdirectory]
  exact fun hnone => hnone a ha ((hholds _).2 rfl)

section
variable (hfinds : ∀ root : FileTree, root.WellFormed → ({ w with root } : Workspace).HasDirectory start →
  ({ w with root } : Workspace).FindsNearest start)
include hfinds

/-- Every directory that the path passes lies around its end: what is found in a deepest other one would be wrong. -/
theorem namesTo_prefix_of_findsNearest (hne : start ≠ []) {a : Path} (ha : a ∈ ancestors start) :
    w.namesTo a <+: w.namesTo start := by
  have hbound : ∀ b ∈ ancestors start, (w.namesTo b).length ≤ (moves (join w.current start)).length := by
    intro b hb
    have hlength := length_lead_le [] (moves (join w.current b))
    have hbegins := (moves_join_of_mem_ancestors hb w.current).length_le
    rw [namesTo_eq]
    simp only [List.length_nil] at hlength
    omega
  -- from the deepest directory to the root
  induction hn : (moves (join w.current start)).length - (w.namesTo a).length using Nat.strongRecOn generalizing a with
  | ind n ih =>
    have hdeeper : ∀ b ∈ ancestors start, (w.namesTo a).length < (w.namesTo b).length →
        w.namesTo b <+: w.namesTo start := by
      intro b hb hlonger
      have := hbound b hb
      exact ih _ (by omega) hb rfl
    obtain ⟨root, hwell, hdirectory, hholds, hsome⟩ := exists_root_of_deeper hbase hcurrent hne ha hdeeper
    obtain ⟨p, hp⟩ := Option.ne_none_iff_exists'.1 hsome
    obtain ⟨-, dir, name, -, hto, hpreferred, -⟩ := (hfinds root hwell hdirectory).of_some p hp
    exact (hholds dir).1 hpreferred.holdsConfig ▸ hto

/-- Where the search finds the nearest configuration in every tree, the path stays between its beginning and its
end. -/
theorem staysBetween_of_findsNearest : w.StaysBetween start := by
  by_cases hne : start = []
  · subst hne
    intro a ha
    obtain rfl : a = [] := by simpa [ancestors, upTo] using ha
    exact ⟨List.prefix_rfl, List.prefix_rfl⟩
  intro a ha
  have hend {b : Path} (hb : b ∈ ancestors start) := namesTo_prefix_of_findsNearest hbase hcurrent hfinds hne hb
  refine ⟨?_, hend ha⟩
  by_contra hbegin
  obtain ⟨root, hwell, hdirectory, hholds, hsome⟩ :=
    exists_root_of_deeper hbase hcurrent hne ha fun b hb _ => hend hb
  refine hsome ((hfinds root hwell hdirectory).none_iff.2 fun dir hfrom _ hdir => hbegin ?_)
  obtain rfl := (hholds dir).1 hdir
  rcases hfrom with hfrom | heq
  · exact hfrom
  · obtain ⟨b, hb, hbeginning⟩ := w.exists_ancestor_beginning start
    rw [heq, ← hbeginning]
    exact hend hb

end

end

/-- **The search for a configuration** goes back along the path as it is spelled. In every tree this finds the nearest
configuration exactly if the path stays between its beginning and its end, so always if it never steps up. -/
theorem findsNearest_iff {base : List Text} (hbase : ∀ name ∈ base, IsName name)
    (hcurrent : w.current = along ['/'] base) (start : Path) :
    (w.HasDirectory start →
      (w.configPath? start = none ↔ ∀ a ∈ ancestors start, ¬ HoldsConfig w.root (w.namesTo a)) ∧
      ∀ p, w.configPath? start = some p ↔ ∃ nearer a further name, ancestors start = nearer ++ a :: further ∧
        (∀ b ∈ nearer, ¬ HoldsConfig w.root (w.namesTo b)) ∧ IsPreferredConfig w.root (w.namesTo a) name ∧
        p = join a name) ∧
    ((∀ root : FileTree, root.WellFormed → ({ w with root } : Workspace).HasDirectory start →
        ({ w with root } : Workspace).FindsNearest start) ↔ w.StaysBetween start) ∧
    ((∀ piece ∈ pieces start, piece ≠ ['.', '.']) → w.StaysBetween start) := by
  have habsolute : isAbsolute w.current = true := hcurrent ▸ isAbsolute_along base
  refine ⟨fun hstart => ⟨configPath?_eq_none_iff habsolute hstart, fun p => configPath?_eq_some_iff habsolute hstart⟩,
    ⟨staysBetween_of_findsNearest hbase hcurrent, fun hbetween root _ hstart => ?_⟩, fun hdown a ha => ?_⟩
  · exact findsNearest_of_staysBetween (w := { w with root }) habsolute hstart hbetween
  · have hmoves := (of_mem_ancestors ha).1
    have hne : ∀ m ∈ moves start, m ≠ ['.', '.'] := fun m hm => hdown m (mem_movesOf_iff.1 hm).1
    rw [namesTo_eq_lead, namesTo_eq_lead, beginningOf_of_mem_ancestors ha, lead_of_forall_ne hne,
      lead_of_forall_ne fun m hm => hne m (hmoves.mem hm)]
    exact ⟨List.prefix_append _ _, (List.prefix_append_right_inj _).2 hmoves⟩

/-- A path that goes down, up and down again to the same directory never leaves the way. -/
theorem findsNearest_iff_down_again :
    let w : Workspace := {
      root := .dir [("app", .dir
        [(".gqltagrc", .file (some [])), ("graphql-tag.config.yml", .dir []), ("src", .dir [])])]
      current := "/app" }
    (∀ name ∈ (["app"] : List Text), IsName name) ∧ w.current = along ['/'] ["app"] ∧
      w.HasDirectory "src/../src" ∧ w.configPath? "src/../src" = some "src/../.gqltagrc" ∧
      w.FindsNearest "src/../src" := by
  intro w
  have hbase : ∀ name ∈ (["app"] : List Text), IsName name := by decide
  have hcurrent : w.current = along ['/'] ["app"] := by decide
  have hdirectory : w.HasDirectory "src/../src" := ⟨_, rfl, rfl⟩
  have hwell : w.root.WellFormed := by
    simp only [w, FileTree.wellFormed_dir_iff, FileTree.wellFormed_file, List.forall_mem_cons, List.not_mem_nil,
      IsEmpty.forall_iff, implies_true, and_true]
    decide
  have hbetween : w.StaysBetween "src/../src" := by
    unfold StaysBetween
    decide
  obtain ⟨-, hfinds, -⟩ := findsNearest_iff hbase hcurrent "src/../src"
  exact ⟨hbase, hcurrent, hdirectory, by decide, hfinds.2 hbetween w.root hwell hdirectory⟩

/-- The search comes through a directory beside the way and takes the configuration there, though neither the directory
at the path nor one around it holds any. -/
theorem configPath?_beside :
    let w : Workspace := { root := .dir [("a", .dir [(".gqltagrc", .file (some []))]), ("b", .dir [])] }
    w.root.WellFormed ∧ w.HasDirectory "a/../b" ∧ w.namesTo "a/../b" = ["b"] ∧
      (∀ dir, dir <+: (["b"] : List Text) → ¬ HoldsConfig w.root dir) ∧
      w.configPath? "a/../b" = some "a/.gqltagrc" ∧ ¬ w.FindsNearest "a/../b" := by
  intro w
  have hnone : ∀ dir, dir <+: (["b"] : List Text) → ¬ HoldsConfig w.root dir := by
    have hcandidates : ∀ dir ∈ ([[], ["b"]] : List (List Text)), ∀ name ∈ configNames,
        (w.root.get? (dir ++ [name])).isNone = true := by decide
    rintro dir hdir ⟨name, hname, content, hget⟩
    have hmem : dir ∈ ([[], ["b"]] : List (List Text)) := by
      rcases List.prefix_cons_iff.1 hdir with rfl | ⟨t, rfl, ht⟩
      · simp
      · simp [List.prefix_nil.1 ht]
    have hisNone := hcandidates dir hmem name hname
    rw [hget] at hisNone
    cases hisNone
  have hfound : w.configPath? "a/../b" = some "a/.gqltagrc" := by decide
  have hwell : w.root.WellFormed := by
    simp only [w, FileTree.wellFormed_dir_iff, FileTree.wellFormed_file, List.forall_mem_cons, List.not_mem_nil,
      IsEmpty.forall_iff, implies_true, and_true]
    decide
  refine ⟨hwell, ⟨_, rfl, rfl⟩, by decide, hnone, hfound, fun hfinds => ?_⟩
  have hsearch := hfinds.none_iff.2 fun dir _ hto => hnone dir hto
  rw [hfound] at hsearch
  cases hsearch

end Workspace

end GraphqlBuild
