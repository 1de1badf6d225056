import GraphqlBuild.Proofs.LineEnd
import GraphqlBuild.Proofs.Pipeline.FileModule
import GraphqlBuild.Proofs.Pipeline.LineEndings
import GraphqlBuild.Proofs.Renormalization
/-!
# Carriage returns left in a file

The line ends of a GraphQL file are made line feeds once, from left to right, before its comments go. A carriage return
that stands alone stays, and it may come to stand in front of a line feed: the return of the pair behind it has been
dropped, or the comment between the two has been stripped (`Normalization.LeavesFeed`). The normalized text has such a
pair exactly if something is left on both sides of one, and only then does a second normalization change it
(`Pipeline.normalizeFile_normalizeFile_iff`).
-/

namespace GraphqlBuild

open Graphql (endsLine)

namespace Normalization
variable {n : Normalization} {a b : Text}

/-- Behind a carriage return the text leaves a line feed and nothing in front of it: the return of the line end is
dropped, or a comment is stripped. -/
def LeavesFeed (n : Normalization) (t : Text) : Prop :=
  t = ['\r', '\n'] ∨ n.stripComments = true ∧ ∃ line, (∀ c ∈ line, endsLine c = false) ∧
    (t = '#' :: (line ++ ['\n']) ∨ t = '#' :: (line ++ ['\r', '\n']))

/-- A return and such a text become a return and a line feed. -/
theorem LeavesFeed.kept_unixLines {between : Text} (h : n.LeavesFeed between) (before after : Text) :
    n.kept (unixLines (before ++ '\r' :: (between ++ after))) =
      n.kept (unixLines before) ++ ['\r', '\n'] ++ n.kept (unixLines after) := by
  have hlines : ∃ x, n.kept x = [] ∧
      unixLines ('\r' :: (between ++ after)) = '\r' :: (x ++ '\n' :: unixLines after) := by
    rcases h with rfl | ⟨hstrip, line, hline, hbetween⟩
    · exact ⟨[], kept_eq_nil_iff.2 (.inl rfl), rfl⟩
    · have hreturn : '\r' ∉ line := fun hmem => absurd (hline _ hmem) (by decide)
      have hsharp : ∀ t, unixLines ('\r' :: '#' :: t) = '\r' :: '#' :: unixLines t := fun _ => rfl
      refine ⟨'#' :: line, kept_eq_nil_iff.2 (.inr ⟨hstrip, line, hline, rfl⟩), ?_⟩
      rcases hbetween with rfl | rfl
      · rw [List.cons_append, hsharp, List.append_assoc, unixLines_append hreturn]
        rfl
      · rw [List.cons_append, hsharp, List.append_assoc, unixLines_append hreturn]
        rfl
  obtain ⟨x, hx, hlines⟩ := hlines
  rw [unixLines_append_cons (by decide), hlines, kept_append_cons (by decide), kept_append_cons (by decide), hx]
  simp

/-- A return in front of a line feed comes from a return and such a text. -/
theorem exists_leavesFeed {code : Text} (h : n.kept (unixLines code) = a ++ ['\r', '\n'] ++ b) :
    ∃ before between after, code = before ++ '\r' :: (between ++ after) ∧ n.LeavesFeed between ∧
      n.kept (unixLines before) = a ∧ n.kept (unixLines after) = b := by
  rw [List.append_assoc, List.cons_append, List.singleton_append] at h
  obtain ⟨u, v, hcode, rfl, hv⟩ := exists_of_kept (by decide) h
  obtain ⟨x, w, rfl, hx, rfl⟩ := exists_of_kept (a := []) (by decide) hv
  obtain ⟨before, rest, rfl, rfl, hrest, hnofeed⟩ := exists_of_unixLines_return hcode
  rcases kept_eq_nil_iff.1 hx with rfl | ⟨hstrip, line, hline, rfl⟩
  · have hempty : ∀ c ∈ ([] : Text), endsLine c = false := by simp
    obtain ⟨after, rfl, rfl | rfl⟩ := exists_of_unixLines_line hempty hrest
    · exact absurd rfl (hnofeed after)
    · exact ⟨before, ['\r', '\n'], after, rfl, .inl rfl, rfl, rfl⟩
  · obtain ⟨after, rfl, rfl | rfl⟩ := exists_of_unixLines_line (List.forall_mem_cons.2 ⟨rfl, hline⟩) hrest
    · exact ⟨before, '#' :: (line ++ ['\n']), after, by simp, .inr ⟨hstrip, line, hline, .inl rfl⟩, rfl, rfl⟩
    · exact ⟨before, '#' :: (line ++ ['\r', '\n']), after, by simp, .inr ⟨hstrip, line, hline, .inr rfl⟩, rfl, rfl⟩

end Normalization

namespace Pipeline
variable {p : Pipeline} {code : Text}

theorem normalizeFile_eq_trim_kept (htransform : p.options.normalization.transform = none) (code : Text) :
    p.normalizeFile code = (p.options.normalization.kept (unixLines code)).trim := by
  rw [normalizeFile, wholeFile, Normalization.apply, Normalization.applied_of_none htransform,
    Normalization.trim_kept_trim]

theorem infix_normalizeFile_iff (htransform : p.options.normalization.transform = none) :
    ['\r', '\n'] <:+: p.normalizeFile code ↔
      ∃ before between after, code = before ++ '\r' :: (between ++ after) ∧
        p.options.normalization.LeavesFeed between ∧ p.normalizeFile before ≠ [] ∧ p.normalizeFile after ≠ [] := by
  have hblank : ['\r', '\n'].all isBlank = true := by decide
  simp only [normalizeFile_eq_trim_kept htransform]
  rw [Text.infix_trim_iff (by simp) (List.all_eq_true.1 hblank)]
  constructor
  · rintro ⟨a, b, hkept, ha, hb⟩
    obtain ⟨before, between, after, hcode, hbetween, rfl, rfl⟩ := Normalization.exists_leavesFeed hkept
    exact ⟨before, between, after, hcode, hbetween, ha, hb⟩
  · rintro ⟨before, between, after, rfl, hbetween, hbefore, hafter⟩
    exact ⟨_, _, hbetween.kept_unixLines before after, hbefore, hafter⟩

/-- Of a normalized text a second normalization can only drop returns. -/
theorem normalizeFile_normalizeFile_eq_iff (htransform : p.options.normalization.transform = none) (code : Text) :
    p.normalizeFile (p.normalizeFile code) = p.normalizeFile code ↔
      unixLines (p.normalizeFile code) = p.normalizeFile code := by
  have hkept : p.options.normalization.kept (p.normalizeFile code) = p.normalizeFile code := by
    have hsteady : p.options.normalization.IsSteady := by simp [Normalization.IsSteady, htransform]
    exact hsteady.kept_apply _
  rw [normalizeFile_eq_trim_kept htransform (p.normalizeFile code)]
  constructor
  · intro h
    -- nothing of the text is lost on the way back to itself
    have hshorter := (Text.trim_sublist _).trans
      (p.options.normalization.kept_sublist (unixLines (p.normalizeFile code)))
    rw [h] at hshorter
    exact (unixLines_sublist _).eq_of_length_le hshorter.length_le
  · intro h
    rw [h, hkept, trim_normalizeFile]

theorem return_notMem_normalizeFile (htransform : p.options.normalization.transform = none) {t : Text} (ht : '\r' ∉ t)
    (h : t.AddsReturns code) : '\r' ∉ p.normalizeFile code := by
  rw [normalizeFile_of_addsReturns ht h, normalizeFile_eq_trim_kept htransform, unixLines_of_notMem ht]
  exact fun hreturn => ht (Normalization.mem_of_mem_kept (Text.mem_of_mem_trim hreturn))

/-- **When normalizing a file once is enough**, without a transform: exactly if no carriage return is left in front of
a line feed. One is left exactly if the code has a return in front of a line end that loses its own, or of a stripped
comment that ends its line, and a character that is not blank is left on both sides. If each return stands in front of a
line feed, none is left at all. -/
theorem normalizeFile_normalizeFile_iff (htransform : p.options.normalization.transform = none) (code : Text) :
    (p.normalizeFile (p.normalizeFile code) = p.normalizeFile code ↔ ¬['\r', '\n'] <:+: p.normalizeFile code) ∧
      (['\r', '\n'] <:+: p.normalizeFile code ↔
        ∃ before between after, code = before ++ '\r' :: (between ++ after) ∧
          p.options.normalization.LeavesFeed between ∧ p.normalizeFile before ≠ [] ∧ p.normalizeFile after ≠ []) ∧
      ∀ t : Text, '\r' ∉ t → t.AddsReturns code → '\r' ∉ p.normalizeFile code := by
  refine ⟨?_, infix_normalizeFile_iff htransform, fun t ht h => return_notMem_normalizeFile htransform ht h⟩
  rw [normalizeFile_normalizeFile_eq_iff htransform, unixLines_eq_self_iff]

/-- A return in front of a comment, at the end of the file and inside of it. -/
theorem normalizeFile_normalizeFile_iff_comment :
    let p : Pipeline := { options := ⟨{}, by decide⟩ }
    let code : Text := "a\r# b\n"
    p.normalizeFile (p.normalizeFile code) = p.normalizeFile code ∧
      ['\r', '\n'] <:+: p.normalizeFile (code ++ ("c" : Text)) := by
  intro p code
  have hnone : ¬['\r', '\n'] <:+: p.normalizeFile code := by decide
  have hline : ∀ c ∈ [' ', 'b'], endsLine c = false := by simp [endsLine]
  refine ⟨(normalizeFile_normalizeFile_iff rfl code).1.2 hnone, ?_⟩
  refine (normalizeFile_normalizeFile_iff rfl _).2.1.2 ⟨"a", "# b\n", "c", rfl, ?_, by decide, by decide⟩
  exact .inr ⟨rfl, [' ', 'b'], hline, .inl rfl⟩

/-- Of a return and a line end the first return is left, and the second normalization drops it. -/
theorem normalizeFile_two_returns :
    let p : Pipeline := { options := ⟨{}, by decide⟩ }
    let code : Text := "a\r\r\nb"
    p.options.normalization.transform = none ∧ p.normalizeFile code = ("a\r\nb" : Text) ∧
      p.normalizeFile (p.normalizeFile code) = ("a\nb" : Text) ∧ ['\r', '\n'] <:+: p.normalizeFile code := by
  exact ⟨rfl, by decide, by decide, by decide⟩

end Pipeline

end GraphqlBuild
