import GraphqlBuild.Text.Edit
/-!
# Cutting a text at byte offsets

Offsets are met in the form of a concatenation: in `a ++ b ++ c` the part `b` lies between the bytes
`a.size` and `a.size + b.size`. There `slice?` finds it (`slice?_append`) and an edit replaces it
(`replaceIn_append`), whatever characters the three parts are made of.
-/

namespace GraphqlBuild

namespace Text

@[simp] theorem size_nil : size [] = 0 := rfl

@[simp] theorem size_cons (c : Char) (t : Text) : size (c :: t) = c.utf8Size + size t := rfl

theorem size_pos {t : Text} (h : t ≠ []) : 0 < size t := by
  cases t with
  | nil => exact absurd rfl h
  | cons c t =>
    have := Char.utf8Size_pos c
    rw [size_cons]
    omega

theorem size_le_of_suffix {s t : Text} (h : s <:+ t) : size s ≤ size t := by
  obtain ⟨before, rfl⟩ := h
  rw [size_append]
  omega

theorem after?_eq_some_iff {head t rest : Text} : after? head t = some rest ↔ t = head ++ rest := by
  induction head generalizing t with
  | nil => simp [after?, eq_comm]
  | cons c head ih =>
    cases t with
    | nil => simp [after?]
    | cons d t =>
      by_cases hcd : c = d
      · subst hcd
        simp [after?, ih]
      · simp [after?, hcd, Ne.symm hcd]

/-! ## Slices of a concatenation -/

theorem slice?_append (a b c : Text) : slice? (a ++ b ++ c) a.size (a.size + b.size) = some b := by
  unfold slice?
  rw [if_pos (by omega), List.append_assoc, splitAt?_append]
  simp only [Option.bind_eq_bind, Option.bind_some, Nat.add_sub_cancel_left, splitAt?_append]
  rfl

theorem slice?_zero_append (a b : Text) : slice? (a ++ b) 0 a.size = some a := by
  simpa using slice?_append [] a b

/-- A slice from the start of a text is a beginning of it. -/
theorem exists_append_of_slice?_zero {t a : Text} {n : Nat} (h : t.slice? 0 n = some a) :
    ∃ b, t = a ++ b ∧ n = a.size := by
  have hfront : splitAt? 0 t = some ([], t) := splitAt?_append [] t
  rw [slice?, if_pos (Nat.zero_le n), hfront, Option.bind_eq_bind, Option.bind_some] at h
  obtain ⟨⟨front, behind⟩, hcut, h⟩ := Option.bind_eq_some_iff.1 h
  obtain ⟨hsize, ht⟩ := size_of_splitAt? hcut
  obtain rfl := Option.some.inj h
  exact ⟨behind, ht, hsize.symm⟩

theorem slice?_append_size (a b : Text) : slice? (a ++ b) a.size (a ++ b).size = some b := by
  simpa using slice?_append a b []

end Text

theorem Edit.replaceIn_append (a b c new : Text) :
    Edit.replaceIn ⟨⟨a.size, a.size + b.size⟩, new⟩ (a ++ b ++ c) = a ++ new ++ c := by
  have hsplit : Text.splitAt? a.size (a ++ b ++ c) = some (a, b ++ c) := by
    rw [List.append_assoc, Text.splitAt?_append]
  unfold Edit.replaceIn Edit.replaceIn?
  rw [if_pos (by simp)]
  simp only [hsplit, Option.bind_eq_bind, Option.bind_some, Nat.add_sub_cancel_left,
    Text.splitAt?_append]
  rfl

end GraphqlBuild
