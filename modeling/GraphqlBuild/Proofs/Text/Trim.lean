import GraphqlBuild.Proofs.Text.Collapse
import Mathlib.Data.List.TakeWhile
/-!
# Trimmed texts

Trimming leaves nothing exactly if the text is blank (`trim_eq_nil_iff`). Blanks at the ends do not matter to it
(`trim_blanks`), and what stands between two texts that are not blank stays (`trim_append_append`).
-/

namespace GraphqlBuild.Text

variable {a b t : Text}

theorem trim_eq_nil_iff : t.trim = [] ↔ ∀ c ∈ t, isBlank c = true := by
  constructor
  · intro h c hc
    rw [← leading_trim_trailing t, h, List.nil_append] at hc
    rcases List.mem_append.1 hc with hc | hc
    · exact isBlank_of_mem_leading hc
    · exact isBlank_of_mem_trailing hc
  · intro h
    cases htrim : t.trim with
    | nil => rfl
    | cons c rest =>
      have hc : c ∈ t := mem_of_mem_trim (by rw [htrim]; exact List.mem_cons_self)
      have hsolid : isBlank c = false := isBlank_of_mem_head?_trim (by rw [htrim]; rfl)
      rw [h c hc] at hsolid
      cases hsolid

theorem trim_ne_nil_iff : t.trim ≠ [] ↔ ∃ c ∈ t, isBlank c = false := by
  simp [trim_eq_nil_iff]

theorem trim_sublist (t : Text) : t.trim.Sublist t := by
  have hpart : t.trim <:+: t := ⟨t.leading, t.trailing, by rw [List.append_assoc, leading_trim_trailing]⟩
  exact hpart.sublist

theorem trimStart_append (ha : a.trim ≠ []) (b : Text) : (a ++ b).trimStart = a.trimStart ++ b := by
  have hstart : a.trimStart ≠ [] := by
    intro h
    exact ha (by rw [trim, h]; rfl)
  rw [trimStart, List.dropWhile_append, if_neg (by simpa [trimStart] using hstart), trimStart]

theorem trimEnd_append (hb : b.trim ≠ []) (a : Text) : (a ++ b).trimEnd = a ++ b.trimEnd := by
  obtain ⟨c, hc, hsolid⟩ := trim_ne_nil_iff.1 hb
  have hend : b.reverse.dropWhile isBlank ≠ [] := by
    intro h
    have hall := List.dropWhile_eq_nil_iff.1 h c (List.mem_reverse.2 hc)
    rw [hsolid] at hall
    cases hall
  rw [trimEnd, List.reverse_append, List.dropWhile_append, if_neg (by simpa using hend), List.reverse_append,
    List.reverse_reverse, trimEnd]

/-- Between two texts that are not blank everything stays. -/
theorem trim_append_append (ha : a.trim ≠ []) (hb : b.trim ≠ []) (m : Text) :
    (a ++ m ++ b).trim = a.trimStart ++ m ++ b.trimEnd := by
  rw [trim, List.append_assoc, trimStart_append ha, ← List.append_assoc, trimEnd_append hb]

theorem trim_blanks {lead trail : Text} (hlead : ∀ c ∈ lead, isBlank c = true) (htrail : ∀ c ∈ trail, isBlank c = true)
    (t : Text) : (lead ++ (t ++ trail)).trim = t.trim := by
  by_cases ht : t.trim = []
  · have hall := trim_eq_nil_iff.1 ht
    rw [ht, trim_eq_nil_iff]
    simp only [List.mem_append]
    rintro c (hc | hc | hc)
    · exact hlead c hc
    · exact hall c hc
    · exact htrail c hc
  · have hstart : (lead ++ (t ++ trail)).trimStart = (t ++ trail).trimStart := List.dropWhile_append_of_pos hlead
    have hend : trimEnd (t.trimStart ++ trail) = t.trimStart.trimEnd := by
      rw [trimEnd, List.reverse_append,
        List.dropWhile_append_of_pos fun c hc => htrail c (List.mem_reverse.1 hc), trimEnd]
    rw [trim, hstart, trimStart_append ht, hend, trim]

/-- A word of blanks is left by trimming where the text is not blank on either side. -/
theorem infix_trim_iff {w : Text} (hne : w ≠ []) (hw : ∀ c ∈ w, isBlank c = true) :
    w <:+: t.trim ↔ ∃ a b, t = a ++ w ++ b ∧ a.trim ≠ [] ∧ b.trim ≠ [] := by
  constructor
  · rintro ⟨front, back, htrim⟩
    have hfront : ∃ c ∈ front, isBlank c = false := by
      cases front with
      | nil =>
        obtain ⟨c, w, rfl⟩ := List.exists_cons_of_ne_nil hne
        have hsolid : isBlank c = false := isBlank_of_mem_head?_trim (t := t) (by rw [← htrim]; rfl)
        rw [hw c List.mem_cons_self] at hsolid
        cases hsolid
      | cons c front =>
        exact ⟨c, List.mem_cons_self, isBlank_of_mem_head?_trim (t := t) (by rw [← htrim]; rfl)⟩
    have hback : ∃ c ∈ back, isBlank c = false := by
      by_cases hnil : back = []
      · have hlast := List.getLast?_eq_some_getLast hne
        have hsolid : isBlank (w.getLast hne) = false := by
          refine isBlank_of_mem_getLast?_trim (t := t) ?_
          rw [← htrim, hnil, List.append_nil, List.getLast?_append, hlast]
          rfl
        rw [hw _ (List.getLast_mem hne)] at hsolid
        cases hsolid
      · refine ⟨back.getLast hnil, List.getLast_mem hnil, isBlank_of_mem_getLast?_trim (t := t) ?_⟩
        rw [← htrim, List.getLast?_append, List.getLast?_eq_some_getLast hnil]
        rfl
    obtain ⟨c, hc, hsolid⟩ := hfront
    obtain ⟨d, hd, hsolid'⟩ := hback
    refine ⟨t.leading ++ front, back ++ t.trailing, ?_, ?_, ?_⟩
    · calc t = t.leading ++ (t.trim ++ t.trailing) := (leading_trim_trailing t).symm
        _ = t.leading ++ front ++ w ++ (back ++ t.trailing) := by
          rw [← htrim]
          simp
    · exact trim_ne_nil_iff.2 ⟨c, List.mem_append_right _ hc, hsolid⟩
    · exact trim_ne_nil_iff.2 ⟨d, List.mem_append_left _ hd, hsolid'⟩
  · rintro ⟨a, b, rfl, ha, hb⟩
    rw [trim_append_append ha hb]
    exact ⟨a.trimStart, b.trimEnd, rfl⟩

end GraphqlBuild.Text
