import GraphqlBuild.Proofs.Text.Cut
/-!
# Where an edit fits

A span fits a text if its two ends are boundaries of the text, the first no later than the second. Then the text
is what stands before the span, in it and behind it (`Span.fits_iff`), and an edit of the span puts its new text
between the outer two; an edit of any other span changes nothing (`Edit.replaceIn_of_not_fits`). Either way the
text in front of the span stays, and with it the boundaries there.
-/

namespace GraphqlBuild

namespace Text

/-- Byte `n` is the first of a character of the text, or the end of the text. -/
def Boundary (t : Text) (n : Nat) : Prop := ∃ a b, t = a ++ b ∧ a.size = n

theorem boundary_iff {t : Text} {n : Nat} : t.Boundary n ↔ (t.splitAt? n).isSome = true := by
  constructor
  · rintro ⟨a, b, rfl, rfl⟩
    simp [splitAt?_append]
  · intro h
    obtain ⟨⟨a, b⟩, hab⟩ := Option.isSome_iff_exists.1 h
    obtain ⟨hsize, ht⟩ := size_of_splitAt? hab
    exact ⟨a, b, ht, hsize⟩

instance (t : Text) (n : Nat) : Decidable (t.Boundary n) := decidable_of_iff _ boundary_iff.symm

/-- Of two beginnings of a text the shorter is a beginning of the longer. -/
theorem exists_append_of_size_le {a b c d : Text} (h : a ++ b = c ++ d) (hsize : a.size ≤ c.size) :
    ∃ m, c = a ++ m ∧ b = m ++ d := by
  rcases List.append_eq_append_iff.1 h with ⟨m, hc, hb⟩ | ⟨m, ha, hd⟩
  · exact ⟨m, hc, hb⟩
  · cases m with
    | nil => exact ⟨[], by simpa using ha.symm, by simpa using hd.symm⟩
    | cons x m =>
      have hx : 0 < x.utf8Size := Char.utf8Size_pos x
      rw [ha, size_append, size_cons] at hsize
      omega

theorem size_eq_zero_iff {t : Text} : t.size = 0 ↔ t = [] := by
  constructor
  · intro h
    cases t with
    | nil => rfl
    | cons c t =>
      have hc : 0 < c.utf8Size := Char.utf8Size_pos c
      rw [size_cons] at h
      omega
  · rintro rfl
    rfl

theorem size_le_of_infix {s t : Text} (h : s <:+: t) : s.size ≤ t.size := by
  obtain ⟨front, back, rfl⟩ := h
  simp only [size_append]
  omega

/-- Up to the end of `a` the text behind `a` does not matter. -/
theorem boundary_append_left {a b : Text} {n : Nat} (hn : n ≤ a.size) : (a ++ b).Boundary n ↔ a.Boundary n := by
  constructor
  · rintro ⟨c, d, h, rfl⟩
    obtain ⟨m, ha, -⟩ := exists_append_of_size_le h.symm hn
    exact ⟨c, m, ha, rfl⟩
  · rintro ⟨c, d, rfl, rfl⟩
    exact ⟨c, d ++ b, by simp, rfl⟩

end Text

/-- Both ends are boundaries of the text, and they are in order. -/
structure Span.Fits (s : Span) (t : Text) : Prop where
  le : s.start ≤ s.stop
  start : t.Boundary s.start
  stop : t.Boundary s.stop

namespace Span
variable {s : Span} {t : Text}

theorem fits_iff_and : s.Fits t ↔ s.start ≤ s.stop ∧ t.Boundary s.start ∧ t.Boundary s.stop :=
  ⟨fun h => ⟨h.le, h.start, h.stop⟩, fun h => ⟨h.1, h.2.1, h.2.2⟩⟩

instance (s : Span) (t : Text) : Decidable (s.Fits t) := decidable_of_iff _ fits_iff_and.symm

theorem fits_iff : s.Fits t ↔ ∃ a b c, t = a ++ b ++ c ∧ s = ⟨a.size, a.size + b.size⟩ := by
  constructor
  · rintro ⟨hle, ⟨a, u, ht, ha⟩, ⟨v, c, htv, hv⟩⟩
    obtain ⟨b, hvb, -⟩ := Text.exists_append_of_size_le (ht.symm.trans htv) (by omega)
    refine ⟨a, b, c, by rw [htv, hvb], ?_⟩
    rw [ha, ← ha, ← Text.size_append, ← hvb, hv, ha]
  · rintro ⟨a, b, c, rfl, rfl⟩
    exact ⟨by simp, ⟨a, b ++ c, by simp, rfl⟩, ⟨a ++ b, c, rfl, by simp⟩⟩

/-- An empty span that fits cuts the text in two. -/
theorem Fits.exists_of_empty (h : s.Fits t) (hempty : s.start = s.stop) :
    ∃ a b, t = a ++ b ∧ s = ⟨a.size, a.size⟩ := by
  obtain ⟨a, b, c, rfl, rfl⟩ := fits_iff.1 h
  have hb : b = [] := Text.size_eq_zero_iff.1 (by simpa using hempty)
  subst hb
  exact ⟨a, c, by simp, rfl⟩

end Span

namespace Edit
variable {e : Edit} {t : Text}

theorem replaceIn_of_span_eq {a b : Text} (h : e.span = ⟨a.size, a.size + b.size⟩) (c : Text) :
    e.replaceIn (a ++ b ++ c) = a ++ e.newText ++ c := by
  rw [← replaceIn_append a b c e.newText, ← h]

/-- The text with the new text in place of a span that fits it. -/
theorem replaceIn_of_fits (h : e.span.Fits t) :
    ∃ a b c, t = a ++ b ++ c ∧ e.span = ⟨a.size, a.size + b.size⟩ ∧ e.replaceIn t = a ++ e.newText ++ c := by
  obtain ⟨a, b, c, rfl, hspan⟩ := Span.fits_iff.1 h
  exact ⟨a, b, c, rfl, hspan, replaceIn_of_span_eq hspan c⟩

theorem replaceIn_of_not_fits (h : ¬e.span.Fits t) : e.replaceIn t = t := by
  unfold replaceIn
  cases hnew : e.replaceIn? t with
  | none => rfl
  | some new =>
    -- an edit that does something has cut the text at both ends of its span
    unfold replaceIn? at hnew
    split at hnew
    · rename_i hle
      obtain ⟨⟨a, rest⟩, hstart, hnew⟩ := Option.bind_eq_some_iff.1 hnew
      obtain ⟨⟨b, c⟩, hstop, -⟩ := Option.bind_eq_some_iff.1 hnew
      obtain ⟨ha, rfl⟩ := Text.size_of_splitAt? hstart
      obtain ⟨hb, rfl⟩ := Text.size_of_splitAt? hstop
      exact absurd ⟨hle, ⟨a, b ++ c, rfl, ha⟩, ⟨a ++ b, c, by simp, by rw [Text.size_append]; omega⟩⟩ h
    · cases hnew

theorem slice?_of_span_eq {s : Span} {a b c : Text} (h : s = ⟨a.size, a.size + b.size⟩) :
    s.slice? (a ++ b ++ c) = some b := by
  subst h
  exact Text.slice?_append a b c

/-- An edit that fits the text has no effect exactly if its new text is there already. -/
theorem isNoop_iff (h : e.span.Fits t) : e.isNoop t = true ↔ e.replaceIn t = t := by
  obtain ⟨a, b, c, rfl, hspan, hnew⟩ := replaceIn_of_fits h
  rw [hnew, isNoop, slice?_of_span_eq hspan, beq_iff_eq, Option.some.injEq, List.append_left_inj,
    List.append_right_inj]
  exact eq_comm

theorem replaceIn_insertion {a : Text} (h : e.span = ⟨a.size, a.size⟩) (b : Text) :
    e.replaceIn (a ++ b) = a ++ e.newText ++ b := by
  have happend := replaceIn_of_span_eq (b := []) h b
  rwa [List.append_nil] at happend

/-- The text inserted last comes first. -/
theorem replaceIn_replaceIn_insertion {d : Edit} {a : Text} (hd : d.span = ⟨a.size, a.size⟩)
    (he : e.span = ⟨a.size, a.size⟩) (b : Text) :
    d.replaceIn (e.replaceIn (a ++ b)) = a ++ (d.newText ++ e.newText) ++ b := by
  rw [replaceIn_insertion he, List.append_assoc, replaceIn_insertion hd]
  simp

/-! ## What an edit leaves alone -/

/-- What stands in front of the span stays. -/
theorem exists_replaceIn_append {a b : Text} (h : a.size ≤ e.span.start) : ∃ w, e.replaceIn (a ++ b) = a ++ w := by
  by_cases hfits : e.span.Fits (a ++ b)
  · obtain ⟨p, o, c, ht, hspan, hnew⟩ := replaceIn_of_fits hfits
    have hstart : e.span.start = p.size := by rw [hspan]
    obtain ⟨m, rfl, -⟩ := Text.exists_append_of_size_le (ht.trans (List.append_assoc p o c)) (by omega)
    exact ⟨m ++ e.newText ++ c, by rw [hnew]; simp⟩
  · exact ⟨b, replaceIn_of_not_fits hfits⟩

/-- What stands behind the span stays. -/
theorem replaceIn_append_left {a b : Text} (h : e.span.stop ≤ a.size) :
    e.replaceIn (a ++ b) = e.replaceIn a ++ b := by
  by_cases hfits : e.span.Fits a
  · obtain ⟨p, o, c, rfl, hspan, hnew⟩ := replaceIn_of_fits hfits
    rw [hnew, List.append_assoc _ c b, replaceIn_of_span_eq hspan, List.append_assoc _ c b]
  · have hlater : ¬e.span.Fits (a ++ b) := by
      intro hfit
      have hstart : e.span.start ≤ a.size := Nat.le_trans hfit.le h
      exact hfits ⟨hfit.le, (Text.boundary_append_left hstart).1 hfit.start, (Text.boundary_append_left h).1 hfit.stop⟩
    rw [replaceIn_of_not_fits hfits, replaceIn_of_not_fits hlater]

/-- The boundaries in front of the span stay, and no others come up there. -/
theorem boundary_replaceIn {n : Nat} (h : n ≤ e.span.start) : (e.replaceIn t).Boundary n ↔ t.Boundary n := by
  by_cases hfits : e.span.Fits t
  · obtain ⟨p, o, c, rfl, hspan, hnew⟩ := replaceIn_of_fits hfits
    have hstart : e.span.start = p.size := by rw [hspan]
    have hn : n ≤ p.size := by omega
    rw [hnew, List.append_assoc, List.append_assoc, Text.boundary_append_left hn, Text.boundary_append_left hn]
  · rw [replaceIn_of_not_fits hfits]

theorem size_replaceIn_of_fits (h : e.span.Fits t) :
    (e.replaceIn t).size + e.span.length = t.size + e.newText.size := by
  obtain ⟨a, b, c, rfl, hspan, hnew⟩ := replaceIn_of_fits h
  rw [hnew, hspan]
  simp only [Text.size_append, Span.length]
  omega

/-- A new text of the old one's size keeps the size, whether the edit fits or not. -/
theorem size_replaceIn (h : e.newText.size = e.span.length) (t : Text) : (e.replaceIn t).size = t.size := by
  by_cases hfits : e.span.Fits t
  · have := size_replaceIn_of_fits hfits
    omega
  · rw [replaceIn_of_not_fits hfits]

/-- Nothing in place of nothing. -/
theorem replaceIn_of_idle (hspan : e.span.stop ≤ e.span.start) (hnew : e.newText = []) (t : Text) :
    e.replaceIn t = t := by
  by_cases hfits : e.span.Fits t
  · obtain ⟨a, b, rfl, heq⟩ := hfits.exists_of_empty (Nat.le_antisymm hfits.le hspan)
    rw [replaceIn_insertion heq, hnew, List.append_nil]
  · exact replaceIn_of_not_fits hfits

end Edit

end GraphqlBuild
