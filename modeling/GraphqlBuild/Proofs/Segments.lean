import GraphqlBuild.Proofs.LineEnd
import GraphqlBuild.Proofs.Text.Lines
/-!
# Comments, segment by segment

Cut at its carriage returns and line feeds a text is its `segments` with the `lineEnds` between them
(`weave_segments`). Stripping keeps the line ends and leaves of each segment what stands in front of its
`commentStart`, the first `#` that no backslash of the same segment precedes (`segments_stripComments`,
`lineEnds_stripComments`): a backslash at the end of a line or in a comment protects nothing.
-/

namespace GraphqlBuild

open Graphql (endsLine line_cases)

variable {line rest s t : Text} {e : Char}

/-- The pieces of a text between the characters that end a line. -/
def segments (t : Text) : List Text := Text.splitOn endsLine t

/-- The characters of a text that end a line, in order. -/
def lineEnds (t : Text) : Text := t.filter endsLine

/-- Segments in order, with the line ends between them. -/
def weave : List Text → Text → Text
  | s :: rest, e :: ends => s ++ e :: weave rest ends
  | pieces, _ => pieces.flatten

/-- At index `i` of the segment stands a `#`, and no backslash right in front of it. -/
def opensComment (s : Text) (i : Nat) : Bool := s[i]? == some '#' && (i == 0 || s[i - 1]? != some '\\')

/-- The index of the first `#` of a segment that no backslash precedes; the segment's length if there is none. -/
def commentStart (s : Text) : Nat := ((List.range s.length).find? (opensComment s)).getD s.length

/-! ## Texts, line by line -/

/-- A text is one line, or a line, what ends it, and the text behind. -/
theorem line_induction {P : Text → Prop} (single : ∀ line, (∀ c ∈ line, endsLine c = false) → P line)
    (cons : ∀ line e rest, (∀ c ∈ line, endsLine c = false) → endsLine e = true → P rest → P (line ++ e :: rest))
    (t : Text) : P t := by
  induction hn : t.length using Nat.strong_induction_on generalizing t with
  | _ n ih =>
    rcases line_cases t with hline | ⟨line, e, rest, rfl, hline, he⟩
    · exact single t hline
    · refine cons line e rest hline he (ih rest.length ?_ rest rfl)
      simp only [List.length_append, List.length_cons] at hn
      omega

section
variable (hline : ∀ c ∈ line, endsLine c = false)
include hline

theorem segments_of_line : segments line = [line] := Text.splitOn_of_forall_not hline

theorem lineEnds_of_line : lineEnds line = [] := by
  rw [lineEnds, List.filter_eq_nil_iff]
  intro c hc
  simp [hline c hc]

theorem segments_line_append (he : endsLine e = true) (rest : Text) :
    segments (line ++ e :: rest) = line :: segments rest := by
  rw [segments, Text.splitOn_append_cons he, ← segments, segments_of_line hline]
  rfl

theorem lineEnds_line_append (he : endsLine e = true) (rest : Text) :
    lineEnds (line ++ e :: rest) = e :: lineEnds rest := by
  rw [lineEnds, List.filter_append, ← lineEnds, lineEnds_of_line hline, List.nil_append, List.filter_cons_of_pos he]
  rfl

end

/-- Nothing is lost when a text is cut into segments. -/
theorem weave_segments (t : Text) : weave (segments t) (lineEnds t) = t := by
  induction t using line_induction with
  | single line hline => simp [segments_of_line hline, lineEnds_of_line hline, weave]
  | cons line e rest hline he ih => rw [segments_line_append hline he, lineEnds_line_append hline he, weave, ih]

/-! ## The first comment of a segment -/

theorem commentStart_le (s : Text) : commentStart s ≤ s.length := by
  unfold commentStart
  cases hfind : (List.range s.length).find? (opensComment s) with
  | none => exact Nat.le_refl _
  | some i => exact Nat.le_of_lt (List.mem_range.1 (List.mem_of_find?_eq_some hfind))

/-- In front of it no comment starts. -/
theorem opensComment_of_lt {i : Nat} (hi : i < commentStart s) : opensComment s i = false := by
  unfold commentStart at hi
  cases hfind : (List.range s.length).find? (opensComment s) with
  | none =>
    rw [hfind] at hi
    simpa using List.find?_eq_none.1 hfind i (List.mem_range.2 hi)
  | some k =>
    rw [hfind] at hi
    simpa using (List.find?_range_eq_some.1 hfind).2.2 i hi

/-- There a comment starts, or the segment ends. -/
theorem opensComment_commentStart (h : commentStart s < s.length) : opensComment s (commentStart s) = true := by
  unfold commentStart at h ⊢
  cases hfind : (List.range s.length).find? (opensComment s) with
  | none =>
    rw [hfind] at h
    exact absurd h (Nat.lt_irrefl _)
  | some k => exact List.find?_some hfind

/-- The last character is looked at together with the one in front of it. -/
theorem uncommented_take {k : Nat} (hk : k ≤ s.length) (h : ∀ i < k, opensComment s i = false) :
    Uncommented none (s.take k) := by
  induction k with
  | zero => trivial
  | succ k ih =>
    have hlt : k < s.length := hk
    rw [List.take_succ_eq_append_getElem hlt, uncommented_concat]
    refine ⟨ih (Nat.le_of_lt hlt) fun i hi => h i (Nat.lt_succ_of_lt hi), fun hsharp => ?_⟩
    have hnone := h k (Nat.lt_succ_self k)
    simp only [opensComment, List.getElem?_eq_getElem hlt, hsharp, beq_self_eq_true, Bool.true_and,
      Bool.or_eq_false_iff, beq_eq_false_iff_ne, bne_eq_false_iff_eq] at hnone
    rw [List.getLast?_take, if_neg hnone.1, hnone.2]
    rfl

theorem stripCommentsFrom_append_of_uncommented {p : Option Char} {a : Text} (ha : Uncommented p a) (b : Text) :
    stripCommentsFrom false p (a ++ b) = a ++ stripCommentsFrom false (a.getLast?.or p) b := by
  induction a generalizing p with
  | nil => rfl
  | cons c a ih =>
    have hkept : ¬(c = '#' ∧ p ≠ some '\\') := fun hc => hc.2 (ha.1 hc.1)
    rw [List.cons_append, stripCommentsFrom_cons hkept, ih ha.2, List.cons_append, List.getLast?_cons]
    cases a.getLast? <;> rfl

/-- Of a segment stripping leaves what stands in front of its first comment. -/
theorem stripComments_of_line (hline : ∀ c ∈ line, endsLine c = false) :
    stripComments line = line.take (commentStart line) := by
  have hfree := uncommented_take (commentStart_le line) fun i hi => opensComment_of_lt hi
  rcases Nat.lt_or_eq_of_le (commentStart_le line) with hlt | heq
  · have hopens := opensComment_commentStart hlt
    simp only [opensComment, List.getElem?_eq_getElem hlt, Bool.and_eq_true, beq_iff_eq, Option.some.injEq] at hopens
    have hlast : ((line.take (commentStart line)).getLast?.or none) ≠ some '\\' := by
      rw [List.getLast?_take, Option.or_none]
      split
      · simp
      · rename_i hzero
        have hbefore : commentStart line - 1 < line.length := by omega
        rw [List.getElem?_eq_getElem hbefore, Option.some_or]
        simpa [hzero, List.getElem?_eq_getElem hbefore] using hopens.2
    have hrest : ∀ c ∈ line.drop (commentStart line + 1), endsLine c = false := fun c hc =>
      hline c (List.mem_of_mem_drop hc)
    have hcut := List.take_append_drop (commentStart line) line
    rw [List.drop_eq_getElem_cons hlt, hopens.1] at hcut
    conv_lhs => rw [← hcut]
    rw [stripComments, stripCommentsFrom_append_of_uncommented hfree, stripCommentsFrom_hash hlast,
      stripCommentsFrom_true_of_line hrest, List.append_nil]
  · rw [heq, List.take_length] at hfree ⊢
    exact stripComments_of_uncommented hfree

/-! ## Stripping segment by segment -/

theorem endsLine_of_mem_take {k : Nat} {c : Char} (hline : ∀ c ∈ line, endsLine c = false) (hc : c ∈ line.take k) :
    endsLine c = false :=
  hline c (List.mem_of_mem_take hc)

/-- What stands in front of the first comment of a segment. -/
def beforeHash (s : Text) : Text := s.take (commentStart s)

theorem segments_stripComments (t : Text) : segments (stripComments t) = (segments t).map beforeHash := by
  induction t using line_induction with
  | single line hline =>
    rw [stripComments_of_line hline, segments_of_line hline, segments_of_line fun c => endsLine_of_mem_take hline]
    rfl
  | cons line e rest hline he ih =>
    rw [stripComments, stripCommentsFrom_append_cons he, ← stripComments, stripComments_of_line hline,
      segments_line_append (fun c => endsLine_of_mem_take hline) he, segments_line_append hline he, ih]
    rfl

theorem lineEnds_stripComments (t : Text) : lineEnds (stripComments t) = lineEnds t := by
  induction t using line_induction with
  | single line hline =>
    rw [stripComments_of_line hline, lineEnds_of_line hline, lineEnds_of_line fun c => endsLine_of_mem_take hline]
  | cons line e rest hline he ih =>
    rw [stripComments, stripCommentsFrom_append_cons he, ← stripComments, stripComments_of_line hline,
      lineEnds_line_append (fun c => endsLine_of_mem_take hline) he, lineEnds_line_append hline he, ih]

theorem stripComments_stripComments (t : Text) : stripComments (stripComments t) = stripComments t :=
  stripComments_of_uncommented (uncommented_stripComments t)

theorem lineCount_ofText (t : Text) : (LineIndex.ofText t).lineCount = (lineEnds t).count '\n' + 1 := by
  rw [lineEnds, List.count_filter (by decide), LineIndex.lineCount, LineIndex.ofText, List.length_cons,
    LineIndex.length_startsAfter]

/-- **Stripping cuts each segment at its first comment.** The line ends stay, so every character in front of a
comment keeps its line and its column, and what is behind a line feed does not matter in front of it. -/
theorem stripComments_by_segment (t : Text) :
    weave (segments t) (lineEnds t) = t ∧
      stripComments t = weave ((segments t).map beforeHash) (lineEnds t) ∧
      stripComments (stripComments t) = stripComments t ∧
      (∀ u, stripComments (t ++ '\n' :: u) = stripComments t ++ '\n' :: stripComments u) ∧
      (LineIndex.ofText (stripComments t)).lineCount = (LineIndex.ofText t).lineCount ∧
      (segments (stripComments t)).length = (segments t).length ∧
      ∀ (i j : Nat) (s : Text), (segments t)[i]? = some s → j < commentStart s →
        ∃ s' : Text, (segments (stripComments t))[i]? = some s' ∧ s'[j]? = s[j]? ∧ s'.take j = s.take j := by
  have hweave := weave_segments (stripComments t)
  rw [segments_stripComments, lineEnds_stripComments] at hweave
  refine ⟨weave_segments t, hweave.symm, stripComments_stripComments t, fun u => ?_, ?_, ?_, ?_⟩
  · exact stripCommentsFrom_append_cons (by decide) false none t u
  · rw [lineCount_ofText, lineCount_ofText, lineEnds_stripComments]
  · rw [segments_stripComments, List.length_map]
  · intro i j s hs hj
    refine ⟨beforeHash s, by rw [segments_stripComments, List.getElem?_map, hs]; rfl, ?_, ?_⟩
    · exact List.getElem?_take_of_lt hj
    · rw [beforeHash, List.take_take, Nat.min_eq_left (Nat.le_of_lt hj)]

/-- A backslash protects a `#` of its own segment; one at the end of a comment protects nothing behind the line
end. -/
theorem stripComments_by_segment_backslashes :
    let t : Text := "a \\# b # c\\\r\n# d"
    (segments t)[0]? = some ("a \\# b # c\\" : Text) ∧ 3 < commentStart "a \\# b # c\\" ∧
      stripComments t = "a \\# b \r\n" ∧
      ∃ s' : Text, (segments (stripComments t))[0]? = some s' ∧ s'[3]? = some '#' ∧ s'.take 3 = ("a \\" : Text) := by
  intro t
  have hs : (segments t)[0]? = some ("a \\# b # c\\" : Text) := by decide
  have hj : 3 < commentStart "a \\# b # c\\" := by decide
  obtain ⟨-, hstrip, -, -, -, -, hplace⟩ := stripComments_by_segment t
  exact ⟨hs, hj, by rw [hstrip]; decide, hplace 0 3 _ hs hj⟩

end GraphqlBuild
