import GraphqlBuild.Proofs.FileTree.Walk
import Mathlib.Data.List.Dedup
/-!
# Trees with all paths of some names

What holds in every tree holds in one that has every path of some names up to some length, but for those that go
through a file (`FileTree.full`). Such a tree is well formed (`FileTree.wellFormed_full`); a path in it leads to a
directory if it meets no file (`FileTree.get?_full_dir`), and the places picked out are its only files
(`FileTree.get?_full_file`, `FileTree.isFile_of_get?_full`). So directories and files may be asked for anywhere
(`FileTree.exists_wellFormed`).
-/

namespace GraphqlBuild.FileTree

open GraphqlBuild.Path

/-- The tree with every path of at most `n` of the names below the directory `here`. The places that `isFile` picks
out are files, and no path goes on behind them. -/
def full (names : List Text) (isFile : List Text → Bool) : Nat → (here : List Text) → FileTree
  | 0, _ => dir []
  | n + 1, here => dir <| names.map fun name =>
      (name, if isFile (here ++ [name]) then file (some []) else full names isFile n (here ++ [name]))

section
variable {names : List Text} {isFile : List Text → Bool}

theorem wellFormed_full (hnodup : names.Nodup) (hnames : ∀ name ∈ names, IsName name) (n : Nat) (here : List Text) :
    (full names isFile n here).WellFormed := by
  induction n generalizing here with
  | zero => simp [full]
  | succ n ih =>
    rw [full, wellFormed_dir_iff]
    refine ⟨by simpa [Function.comp_def] using hnodup, fun e he => ?_⟩
    obtain ⟨name, hname, rfl⟩ := List.mem_map.1 he
    refine ⟨hnames name hname, ?_⟩
    simp only
    split
    · exact wellFormed_file _
    · exact ih _

theorem lookup_map_self {names : List Text} (f : Text → FileTree) {name : Text} (h : name ∈ names) :
    (names.map fun name => (name, f name)).lookup name = some (f name) := by
  induction names with
  | nil => cases h
  | cons x names ih =>
    rw [List.map_cons, List.lookup_cons]
    by_cases hx : name = x
    · simp [hx]
    · have hfalse : (name == x) = false := by simpa using hx
      rw [hfalse]
      exact ih ((List.mem_cons.1 h).resolve_left hx)

theorem get?_full_cons {name : Text} (hname : name ∈ names) (n : Nat) (here path : List Text) :
    (full names isFile (n + 1) here).get? (name :: path) =
      (if isFile (here ++ [name]) then file (some []) else full names isFile n (here ++ [name])).get? path := by
  rw [full, get?, lookup_map_self _ hname, Option.bind_some]

/-- A path that meets no file leads to a directory. -/
theorem get?_full_dir {n : Nat} {here path : List Text} (hlength : path.length ≤ n) (hmem : ∀ name ∈ path, name ∈ names)
    (hnone : ∀ front, front <+: path → front ≠ [] → isFile (here ++ front) = false) :
    ∃ es, (full names isFile n here).get? path = some (dir es) := by
  induction path generalizing n here with
  | nil => cases n <;> exact ⟨_, rfl⟩
  | cons name path ih =>
    obtain ⟨n, rfl⟩ : ∃ m, n = m + 1 := ⟨n - 1, by simp at hlength; omega⟩
    obtain ⟨hname, hpath⟩ := List.forall_mem_cons.1 hmem
    have hfirst := hnone [name] ⟨path, rfl⟩ (by simp)
    rw [get?_full_cons hname, hfirst, if_neg (by simp)]
    refine ih (by simpa using hlength) hpath fun front hfront _ => ?_
    rw [List.append_assoc]
    exact hnone (name :: front) (List.cons_prefix_cons.2 ⟨rfl, hfront⟩) (by simp)

/-- A path to a place that is picked out leads to a file, if nothing on the way is picked out. -/
theorem get?_full_file {n : Nat} {here path : List Text} (hlength : path.length ≤ n)
    (hmem : ∀ name ∈ path, name ∈ names) (hne : path ≠ []) (hfile : isFile (here ++ path) = true)
    (hnone : ∀ front, front <+: path → front ≠ [] → front ≠ path → isFile (here ++ front) = false) :
    (full names isFile n here).get? path = some (file (some [])) := by
  induction path generalizing n here with
  | nil => exact absurd rfl hne
  | cons name path ih =>
    obtain ⟨n, rfl⟩ : ∃ m, n = m + 1 := ⟨n - 1, by simp at hlength; omega⟩
    obtain ⟨hname, hpath⟩ := List.forall_mem_cons.1 hmem
    rw [get?_full_cons hname]
    by_cases hlast : path = []
    · subst hlast
      rw [hfile, if_pos rfl, get?_nil]
    · have hfirst := hnone [name] ⟨path, rfl⟩ (by simp) (by simpa using Ne.symm hlast)
      rw [hfirst, if_neg (by simp)]
      refine ih (by simpa using hlength) hpath hlast (by simpa using hfile) fun front hfront _ hshort => ?_
      rw [List.append_assoc]
      exact hnone (name :: front) (List.cons_prefix_cons.2 ⟨rfl, hfront⟩) (by simp) (by simpa using hshort)

/-- Only what is picked out is a file. -/
theorem isFile_of_get?_full {n : Nat} {here path : List Text} {content : Option Text}
    (h : (full names isFile n here).get? path = some (file content)) : isFile (here ++ path) = true := by
  induction path generalizing n here with
  | nil => cases n <;> cases h
  | cons name path ih =>
    cases n with
    | zero => cases h
    | succ n =>
      have hname : name ∈ names := by
        rw [full, get?] at h
        obtain ⟨entry, hentry, -⟩ := Option.bind_eq_some_iff.1 h
        obtain ⟨x, hx, heq⟩ := List.mem_map.1 (mem_of_lookup hentry)
        obtain ⟨rfl, -⟩ := Prod.mk.inj heq
        exact hx
      rw [get?_full_cons hname] at h
      split at h
      · rename_i hfirst
        cases path with
        | nil => exact hfirst
        | cons next path => cases h
      · simpa using ih h

end

/-- **There is a tree** with directories and files at any places none of which is below a file, and with no other
file. -/
theorem exists_wellFormed (files dirs : List (List Text)) (hne : ∀ path ∈ files, path ≠ [])
    (hnames : ∀ path ∈ files ++ dirs, ∀ name ∈ path, IsName name)
    (hapart : ∀ path ∈ files, ∀ path' ∈ files, path <+: path' → path = path')
    (hdirs : ∀ path ∈ files, ∀ dir ∈ dirs, ¬ path <+: dir) :
    ∃ root : FileTree, root.WellFormed ∧ (∀ path ∈ files, root.get? path = some (file (some []))) ∧
      (∀ path ∈ dirs, ∃ es, root.get? path = some (dir es)) ∧
      ∀ path content, root.get? path = some (file content) → path ∈ files := by
  let all := (files ++ dirs).flatten
  let isFile : List Text → Bool := fun path => decide (path ∈ files)
  have hsublist {path : List Text} (h : path ∈ files ++ dirs) : path.Sublist all := List.sublist_flatten_of_mem h
  have hmem {path : List Text} (h : path ∈ files ++ dirs) : ∀ name ∈ path, name ∈ all.dedup :=
    fun name hname => List.mem_dedup.2 ((hsublist h).mem hname)
  refine ⟨full all.dedup isFile all.length [], wellFormed_full (List.nodup_dedup _) (fun name hname => ?_) _ _,
    fun path hpath => ?_, fun path hpath => ?_, fun path content hget => ?_⟩
  · obtain ⟨path, hpath, hname⟩ := List.mem_flatten.1 (List.mem_dedup.1 hname)
    exact hnames path hpath name hname
  · have hpath' : path ∈ files ++ dirs := List.mem_append_left dirs hpath
    refine get?_full_file (hsublist hpath').length_le (hmem hpath') (hne path hpath) (by simpa [isFile] using hpath)
      fun front hfront _ hshort => ?_
    rw [List.nil_append, decide_eq_false_iff_not]
    exact fun hfile => hshort (hapart front hfile path hpath hfront)
  · have hpath' : path ∈ files ++ dirs := List.mem_append_right files hpath
    refine get?_full_dir (hsublist hpath').length_le (hmem hpath') fun front hfront _ => ?_
    rw [List.nil_append, decide_eq_false_iff_not]
    exact fun hfile => hdirs front hfile path hpath hfront
  · simpa [isFile] using isFile_of_get?_full hget

end GraphqlBuild.FileTree
