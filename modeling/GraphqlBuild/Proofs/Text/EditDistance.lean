import GraphqlBuild.Text.EditDistance
import Mathlib.Order.Bounds.Defs
import Mathlib.Order.MinMax
/-!
# The edit distance is the least number of edits

An edit puts one character in, takes one out or puts one in the place of another (`OneEdit`), and `Edits n` is a chain
of `n` of them. The rows give a recurrence for the distance (`distance_cons_cons`); from it, a chain as long as the
distance is read off (`edits_distance`), and one edit changes no distance by more than one
(`OneEdit.distance_le_succ`), so no chain is shorter (`isLeast_distance`). Chains can be joined, which is the triangle
inequality (`distance_triangle`).
-/

namespace GraphqlBuild.Text

/-- One insertion, deletion or substitution of a character. -/
inductive OneEdit : Text → Text → Prop
  | insertion (front back : Text) (c : Char) : OneEdit (front ++ back) (front ++ c :: back)
  | deletion (front back : Text) (c : Char) : OneEdit (front ++ c :: back) (front ++ back)
  | substitution (front back : Text) (c d : Char) : OneEdit (front ++ c :: back) (front ++ d :: back)

/-- So many edits, one after the other, make the second text of the first. -/
inductive Edits : Nat → Text → Text → Prop
  | refl (t : Text) : Edits 0 t t
  | step {n : Nat} {s t u : Text} : OneEdit s t → Edits n t u → Edits (n + 1) s u

theorem OneEdit.symm {s t : Text} (h : OneEdit s t) : OneEdit t s := by
  cases h with
  | insertion front back c => exact .deletion front back c
  | deletion front back c => exact .insertion front back c
  | substitution front back c d => exact .substitution front back d c

theorem OneEdit.cons {s t : Text} (c : Char) (h : OneEdit s t) : OneEdit (c :: s) (c :: t) := by
  cases h with
  | insertion front back d => exact .insertion (c :: front) back d
  | deletion front back d => exact .deletion (c :: front) back d
  | substitution front back d e => exact .substitution (c :: front) back d e

namespace Edits

theorem cons {n : Nat} {s t : Text} (c : Char) (h : Edits n s t) : Edits n (c :: s) (c :: t) := by
  induction h with
  | refl t => exact refl (c :: t)
  | step hedit _ ih => exact step (hedit.cons c) ih

theorem trans {m n : Nat} {s t u : Text} (h : Edits m s t) (h' : Edits n t u) : Edits (m + n) s u := by
  induction h with
  | refl => rwa [Nat.zero_add]
  | step hedit _ ih => rw [Nat.add_right_comm]; exact step hedit (ih h')

theorem single {s t : Text} (h : OneEdit s t) : Edits 1 s t := step h (refl t)

end Edits

/-! ## The recurrence -/

/-- The row of a longer text is that of the shorter one with one distance in front. -/
theorem drop_one_distances (s : Text) (d : Char) (t : Text) : (distances s (d :: t)).drop 1 = distances s t := by
  induction s with
  | nil => simp [distances, List.range_succ]
  | cons c s ih => rw [distances, distances, distanceRow, List.drop_one, List.tail_cons, ih]

@[simp] theorem distance_nil_left (t : Text) : distance [] t = t.length := by
  cases t with
  | nil => rfl
  | cons d t => simp [distance, distances, List.range_succ]

@[simp] theorem distance_nil_right (s : Text) : distance s [] = s.length := by
  induction s with
  | nil => rfl
  | cons c s ih => simpa [distance, distances, distanceRow] using ih

theorem distance_cons_cons (c d : Char) (s t : Text) : distance (c :: s) (d :: t) =
    min (min (distance s (d :: t) + 1) (distance (c :: s) t + 1)) (distance s t + if c = d then 0 else 1) := by
  rw [distance, distances, distanceRow, drop_one_distances, List.headD_cons]
  rfl

/-! ## A chain as long as the distance -/

theorem edits_length_nil (s : Text) : Edits s.length s [] := by
  induction s with
  | nil => exact .refl []
  | cons c s ih => exact .step (.deletion [] s c) ih

theorem edits_nil_length (t : Text) : Edits t.length [] t := by
  induction t with
  | nil => exact .refl []
  | cons d t ih => exact ih.trans (.single (.insertion [] t d))

theorem edits_distance (s t : Text) : Edits (distance s t) s t := by
  induction s generalizing t with
  | nil => rw [distance_nil_left]; exact edits_nil_length t
  | cons c s ihs =>
    induction t with
    | nil => rw [distance_nil_right]; exact edits_length_nil (c :: s)
    | cons d t iht =>
      have hdelete : Edits (distance s (d :: t) + 1) (c :: s) (d :: t) :=
        .step (.deletion [] s c) (ihs (d :: t))
      have hinsert : Edits (distance (c :: s) t + 1) (c :: s) (d :: t) :=
        iht.trans (.single (.insertion [] t d))
      have hkeep : Edits (distance s t + if c = d then 0 else 1) (c :: s) (d :: t) := by
        split
        · rename_i heq
          rw [heq]
          exact (ihs t).cons d
        · exact .step (.substitution [] s c d) ((ihs t).cons d)
      -- whichever of the three the recurrence takes
      rw [distance_cons_cons]
      rcases min_choice (min (distance s (d :: t) + 1) (distance (c :: s) t + 1))
        (distance s t + if c = d then 0 else 1) with h | h <;> rw [h]
      · rcases min_choice (distance s (d :: t) + 1) (distance (c :: s) t + 1) with h' | h' <;> rw [h']
        · exact hdelete
        · exact hinsert
      · exact hkeep

/-! ## No chain is shorter -/

theorem distance_cons_right_le (s : Text) (d : Char) (t : Text) : distance s (d :: t) ≤ distance s t + 1 := by
  cases s with
  | nil => simp
  | cons c s => rw [distance_cons_cons]; omega

theorem distance_cons_left_le (c : Char) (s t : Text) : distance (c :: s) t ≤ distance s t + 1 := by
  cases t with
  | nil => simp
  | cons d t => rw [distance_cons_cons]; omega

theorem distance_le_cons_left (c : Char) (s t : Text) : distance s t ≤ distance (c :: s) t + 1 := by
  induction t with
  | nil => simp only [distance_nil_right, List.length_cons]; omega
  | cons d t ih =>
    have hright := distance_cons_right_le s d t
    rw [distance_cons_cons]
    omega

theorem distance_substitution_le (c d : Char) (s t : Text) : distance (c :: s) t ≤ distance (d :: s) t + 1 := by
  induction t with
  | nil => simp
  | cons e t ih =>
    rw [distance_cons_cons, distance_cons_cons]
    split <;> split <;> omega

/-- Two texts that are one apart as seen from anywhere are so behind a common front. -/
theorem distance_append_le {s s' : Text} (h : ∀ t, distance s t ≤ distance s' t + 1) (front t : Text) :
    distance (front ++ s) t ≤ distance (front ++ s') t + 1 := by
  induction front generalizing t with
  | nil => exact h t
  | cons c front ih =>
    rw [List.cons_append, List.cons_append]
    induction t with
    | nil => simpa using ih []
    | cons d t iht =>
      have hlong := ih (d :: t)
      have hshort := ih t
      rw [distance_cons_cons, distance_cons_cons]
      omega

/-- One edit changes no distance by more than one. -/
theorem OneEdit.distance_le_succ {s s' : Text} (h : OneEdit s s') (t : Text) :
    distance s t ≤ distance s' t + 1 := by
  cases h with
  | insertion front back c => exact distance_append_le (distance_le_cons_left c back) front t
  | deletion front back c => exact distance_append_le (distance_cons_left_le c back) front t
  | substitution front back c d => exact distance_append_le (distance_substitution_le c d back) front t

theorem distance_self (t : Text) : distance t t = 0 := by
  induction t with
  | nil => rfl
  | cons c t ih => simp [distance_cons_cons, ih]

theorem Edits.distance_le {n : Nat} {s t : Text} (h : Edits n s t) : distance s t ≤ n := by
  induction h with
  | refl t => exact (distance_self t).le
  | step hedit _ ih => exact (hedit.distance_le_succ _).trans (Nat.succ_le_succ ih)

/-- **The edit distance is the least number of edits** that turn the one text into the other. -/
theorem isLeast_distance (s t : Text) : IsLeast {n | Edits n s t} (distance s t) :=
  ⟨edits_distance s t, fun _ h => h.distance_le⟩

theorem distance_triangle (s t u : Text) : distance s u ≤ distance s t + distance t u :=
  ((edits_distance s t).trans (edits_distance t u)).distance_le

theorem OneEdit.distance_le_one {s t : Text} (h : OneEdit s t) : distance s t ≤ 1 := (Edits.single h).distance_le

end GraphqlBuild.Text
