import GraphqlBuild.Config.Error
import GraphqlBuild.Proofs.Text.EditDistance
import Mathlib.Data.List.TakeWhile
/-!
# Which preset is suggested

A name that is no preset's is answered with the preset to which the fewest edits lead, the first of equally near ones,
and with none if each is more than three edits away (`suggestion?_eq_some_iff`, `suggestion?_eq_none_iff`). Two presets
are at least three edits apart (`three_le_distance_name`), so by the triangle inequality one edit from a name leads
nearer to no other, and who makes one mistake in a name is always shown that name (`named_outcome`).
-/

namespace GraphqlBuild.Preset

open Text (OneEdit Edits)

theorem mem_all (p : Preset) : p ∈ all := by cases p <;> simp [all]

/-! ## The nearest of some presets -/

theorem nearestOf_eq_none_iff {t : Text} {ps : List Preset} : nearestOf t ps = none ↔ ps = [] := by
  cases ps with
  | nil => simp [nearestOf]
  | cons p ps =>
    rw [nearestOf]
    split
    · simp
    · split <;> simp

/-- None of the presets is nearer to the text than the one that is taken, and none in front of it is as near. -/
theorem nearestOf_spec {t : Text} {ps : List Preset} {p : Preset} (h : nearestOf t ps = some p) :
    p ∈ ps ∧ (∀ q ∈ ps, t.distance p.name ≤ t.distance q.name) ∧
      ∀ q ∈ ps.takeWhile (· ≠ p), t.distance p.name < t.distance q.name := by
  induction ps generalizing p with
  | nil => cases h
  | cons x ps ih =>
    cases hrest : nearestOf t ps with
    | none =>
      obtain rfl := nearestOf_eq_none_iff.1 hrest
      rw [nearestOf, hrest, Option.some.injEq] at h
      simp [h]
    | some q =>
      obtain ⟨hq, hleast, hfirst⟩ := ih hrest
      simp only [nearestOf, hrest] at h
      split at h <;> cases h
      · rename_i hle
        refine ⟨List.mem_cons_self, List.forall_mem_cons.2 ⟨le_rfl, fun r hr => hle.trans (hleast r hr)⟩, ?_⟩
        simp
      · rename_i hlt
        rw [Nat.not_le] at hlt
        have hx : x ≠ p := fun heq => by simp [heq] at hlt
        rw [List.takeWhile_cons, if_pos (decide_eq_true hx)]
        exact ⟨List.mem_cons_of_mem x hq, List.forall_mem_cons.2 ⟨hlt.le, hleast⟩,
          List.forall_mem_cons.2 ⟨hlt, hfirst⟩⟩

/-! ## The suggestion -/

/-- What stands before an element that is kept. -/
theorem takeWhile_ne_filter {α : Type} [DecidableEq α] (kept : α → Bool) {x : α} (h : kept x = true)
    (l : List α) : (l.filter kept).takeWhile (· ≠ x) = (l.takeWhile (· ≠ x)).filter kept := by
  rw [List.takeWhile_filter]
  have hpast : (fun y => !kept y || decide (y ≠ x)) = fun y => decide (y ≠ x) := by
    funext y
    by_cases hy : y = x <;> simp [hy, h]
  rw [hpast]

/-- The preset is within three edits of the text, none is nearer, and none before it in the list is as near. -/
structure Suggests (t : Text) (p : Preset) : Prop where
  le_three : t.distance p.name ≤ 3
  nearest : ∀ q : Preset, t.distance p.name ≤ t.distance q.name
  first : ∀ q ∈ all.takeWhile (· ≠ p), t.distance p.name < t.distance q.name

/-- Of two presets one comes before the other. -/
theorem mem_takeWhile_or_mem_takeWhile {p q : Preset} (h : p ≠ q) :
    p ∈ all.takeWhile (· ≠ q) ∨ q ∈ all.takeWhile (· ≠ p) := by
  revert h
  cases p <;> cases q <;> decide

theorem Suggests.unique {t : Text} {p q : Preset} (hp : Suggests t p) (hq : Suggests t q) : p = q := by
  by_contra hne
  rcases mem_takeWhile_or_mem_takeWhile hne with h | h
  · exact absurd (hp.nearest q) (Nat.not_le.2 (hq.first p h))
  · exact absurd (hq.nearest p) (Nat.not_le.2 (hp.first q h))

theorem suggestion?_eq_none_iff {t : Text} : suggestion? t = none ↔ ∀ p : Preset, 3 < t.distance p.name := by
  rw [suggestion?, nearestOf_eq_none_iff, List.filter_eq_nil_iff]
  simp only [mem_all, true_imp_iff, decide_eq_true_eq, Nat.not_le]
  rfl

theorem suggests_of_suggestion? {t : Text} {p : Preset} (h : suggestion? t = some p) : Suggests t p := by
  obtain ⟨hmem, hleast, hfirst⟩ := nearestOf_spec h
  simp only [List.mem_filter, mem_all, true_and, decide_eq_true_eq] at hmem hleast
  rw [takeWhile_ne_filter (fun q : Preset => decide (t.distance q.name ≤ reach)) (decide_eq_true hmem)] at hfirst
  -- a preset out of reach is farther than this one
  have hfar : ∀ q : Preset, ¬ t.distance q.name ≤ reach → t.distance p.name < t.distance q.name :=
    fun q hq => by omega
  refine ⟨hmem, fun q => ?_, fun q hq => ?_⟩
  · by_cases hreach : t.distance q.name ≤ reach
    · exact hleast q hreach
    · exact (hfar q hreach).le
  · by_cases hreach : t.distance q.name ≤ reach
    · exact hfirst q (List.mem_filter.2 ⟨hq, decide_eq_true hreach⟩)
    · exact hfar q hreach

theorem suggestion?_eq_some_iff {t : Text} {p : Preset} : suggestion? t = some p ↔ Suggests t p := by
  refine ⟨suggests_of_suggestion?, fun h => ?_⟩
  cases hsuggestion : suggestion? t with
  | none => exact absurd h.le_three (Nat.not_le.2 (suggestion?_eq_none_iff.1 hsuggestion p))
  | some q => rw [(suggests_of_suggestion? hsuggestion).unique h]

/-! ## One edit from a name -/

theorem three_le_distance_name {p q : Preset} (h : p ≠ q) : 3 ≤ Text.distance p.name q.name := by
  revert h
  cases p <;> cases q <;> decide +kernel

theorem suggests_of_oneEdit {t : Text} {p : Preset} (h : OneEdit p.name t) : Suggests t p := by
  have hone := h.symm.distance_le_one
  have hfar : ∀ q : Preset, p ≠ q → t.distance p.name < t.distance q.name := by
    intro q hne
    have hapart := three_le_distance_name hne
    have htriangle := Text.distance_triangle p.name t q.name
    have := h.distance_le_one
    omega
  refine ⟨by omega, fun q => ?_, fun q hq => ?_⟩
  · by_cases hq : p = q
    · rw [hq]
    · exact (hfar q hq).le
  · have hne : q ≠ p := by simpa using List.mem_takeWhile_imp hq
    exact hfar q hne.symm

/-! ## Names in general -/

theorem ofName?_name (p : Preset) : ofName? p.name = some p := by cases p <;> rfl

theorem ofName?_eq_some_iff {name : Text} {p : Preset} : ofName? name = some p ↔ name = p.name := by
  constructor
  · intro h
    have hfound := List.find?_some (p := fun p : Preset => decide (p.name = name)) h
    exact (of_decide_eq_true hfound).symm
  · rintro rfl
    exact ofName?_name p

theorem named_eq_ok_iff {name : Text} {p : Preset} : named name = .ok p ↔ name = p.name := by
  rw [← ofName?_eq_some_iff, named]
  cases ofName? name <;> simp

theorem named_of_ne {name : Text} (h : ∀ p : Preset, name ≠ p.name) :
    named name = .error (.unknownTransform name (suggestion? name)) := by
  have hnone : ofName? name = none := Option.eq_none_iff_forall_ne_some.2 fun p hp => h p (ofName?_eq_some_iff.1 hp)
  rw [named, hnone]

/-- **Who misspells a preset is shown it.** A name is a preset's or an error, and the error suggests the preset that is
the fewest edits away, if that is three at most. For a name with one mistake that is the preset meant. -/
theorem named_outcome (name : Text) :
    (∀ p : Preset, named name = .ok p ↔ name = p.name) ∧
    ((∀ p : Preset, name ≠ p.name) → ∃ suggestion, named name = .error (.unknownTransform name suggestion) ∧
      (∀ p, suggestion = some p ↔ Suggests name p) ∧
      (suggestion = none ↔ ∀ p : Preset, 3 < name.distance p.name)) ∧
    (∀ p : Preset, OneEdit p.name name → (∀ q : Preset, name ≠ q.name) →
      named name = .error (.unknownTransform name (some p))) ∧
    ∀ p : Preset, IsLeast {n | Edits n name p.name} (name.distance p.name) := by
  refine ⟨fun p => named_eq_ok_iff, fun hne => ?_, fun p hedit hne => ?_, fun p => Text.isLeast_distance name p.name⟩
  · exact ⟨suggestion? name, named_of_ne hne, fun p => suggestion?_eq_some_iff, suggestion?_eq_none_iff⟩
  · rw [named_of_ne hne, suggestion?_eq_some_iff.2 (suggests_of_oneEdit hedit)]

/-- The name of a preset that lies only three edits from another, with one letter of it changed. -/
theorem named_outcome_accent :
    OneEdit Preset.lowercase.name "löwercase" ∧ (∀ q : Preset, "löwercase".toList ≠ q.name) ∧
      named "löwercase" = .error (.unknownTransform "löwercase" (some lowercase)) := by
  have hedit : OneEdit Preset.lowercase.name "löwercase" := .substitution "l" "wercase" 'o' 'ö'
  have hne : ∀ q : Preset, "löwercase".toList ≠ q.name := fun q => by cases q <;> decide
  exact ⟨hedit, hne, (named_outcome "löwercase").2.2.1 lowercase hedit hne⟩

end GraphqlBuild.Preset
