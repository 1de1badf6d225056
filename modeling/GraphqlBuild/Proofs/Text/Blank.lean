import GraphqlBuild.Text.Blank
/-!
# Characters of trimmed and collapsed texts

Trimming and collapsing bring no character in, the space between two words apart.
-/

namespace GraphqlBuild.Text

theorem mem_of_mem_trim {c : Char} {t : Text} (h : c ∈ t.trim) : c ∈ t := by
  unfold trim trimEnd trimStart at h
  have hstart : c ∈ t.dropWhile isBlank :=
    List.mem_reverse.1 ((List.dropWhile_sublist _).mem (List.mem_reverse.1 h))
  exact (List.dropWhile_sublist _).mem hstart

theorem mem_of_mem_splitOn {p : Char → Bool} {c : Char} {t piece : Text} (hpiece : piece ∈ splitOn p t)
    (hc : c ∈ piece) : c ∈ t := by
  fun_induction splitOn p t generalizing piece with
  | case1 =>
    obtain rfl := List.mem_singleton.1 hpiece
    cases hc
  | case2 d t hd ih =>
    rcases List.mem_cons.1 hpiece with rfl | hpiece
    · cases hc
    · exact List.mem_cons_of_mem _ (ih hpiece hc)
  | case3 d t hd hsplit ih =>
    obtain rfl := List.mem_singleton.1 hpiece
    obtain rfl := List.mem_singleton.1 hc
    exact List.mem_cons_self
  | case4 d t hd first rest hsplit ih =>
    rw [hsplit] at ih
    rcases List.mem_cons.1 hpiece with rfl | hpiece
    · rcases List.mem_cons.1 hc with rfl | hc
      · exact List.mem_cons_self
      · exact List.mem_cons_of_mem _ (ih List.mem_cons_self hc)
    · exact List.mem_cons_of_mem _ (ih (List.mem_cons_of_mem _ hpiece) hc)

theorem mem_join {c : Char} {separator : Text} {pieces : List Text} (h : c ∈ join separator pieces) :
    c ∈ separator ∨ ∃ piece ∈ pieces, c ∈ piece := by
  unfold join at h
  induction pieces with
  | nil => cases h
  | cons piece pieces ih =>
    cases pieces with
    | nil => exact .inr ⟨piece, List.mem_cons_self, by simpa using h⟩
    | cons next pieces =>
      rw [List.intercalate_cons_cons, List.append_assoc] at h
      rcases List.mem_append.1 h with h | h
      · exact .inr ⟨piece, List.mem_cons_self, h⟩
      rcases List.mem_append.1 h with h | h
      · exact .inl h
      · exact (ih h).imp_right fun ⟨t, ht, hc⟩ => ⟨t, List.mem_cons_of_mem _ ht, hc⟩

theorem mem_of_mem_collapse {c : Char} {t : Text} (h : c ∈ t.collapse) : c = ' ' ∨ c ∈ t := by
  rcases mem_join h with h | ⟨piece, hpiece, hc⟩
  · exact .inl (List.mem_singleton.1 h)
  · exact .inr (mem_of_mem_splitOn (List.mem_filter.1 hpiece).1 hc)

end GraphqlBuild.Text
