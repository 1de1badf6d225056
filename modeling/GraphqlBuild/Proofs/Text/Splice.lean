import GraphqlBuild.Proofs.Document.Template
import GraphqlBuild.Proofs.Edit.Order
import GraphqlBuild.Proofs.Text.Cut
/-!
# Replacing inner texts by edits

A text with some spans picked out of it is its gaps with the inner texts between them,
`interpolate gaps inners`, where `innerSpans` are the spans. Edits of some of these spans leave every gap as
it is and put the new texts in their places (`applyEdits_interpolate`), of whatever sizes the texts are.
-/

namespace GraphqlBuild

/-- The spans of the inner texts in `interpolate gaps inners`, if that begins at `offset`. -/
def innerSpans (offset : Nat) : List Text → List Text → List Span
  | gap :: gaps, inner :: inners =>
    ⟨offset + gap.size, offset + gap.size + inner.size⟩ ::
      innerSpans (offset + gap.size + inner.size) gaps inners
  | _, _ => []

@[simp] theorem interpolate_singleton (gap : Text) : interpolate [gap] [] = gap := by
  simp [interpolate_eq_flatten_alternate, alternate]

@[simp] theorem interpolate_cons_cons (gap inner : Text) (gaps inners : List Text) :
    interpolate (gap :: gaps) (inner :: inners) = gap ++ inner ++ interpolate gaps inners := by
  simp [interpolate_eq_flatten_alternate, alternate]

/-- What stands in front of all gaps belongs to the first. -/
theorem interpolate_append_cons (front gap : Text) (gaps inners : List Text) :
    interpolate ((front ++ gap) :: gaps) inners = front ++ interpolate (gap :: gaps) inners := by
  cases inners <;> simp [interpolate_eq_flatten_alternate, alternate]

theorem innerSpans_append_cons (offset : Nat) (front gap : Text) (gaps inners : List Text) :
    innerSpans offset ((front ++ gap) :: gaps) inners =
      innerSpans (offset + front.size) (gap :: gaps) inners := by
  cases inners <;> simp [innerSpans, Nat.add_assoc]

theorem le_start_of_mem_innerSpans {offset : Nat} {gaps inners : List Text} {s : Span}
    (h : s ∈ innerSpans offset gaps inners) : offset ≤ s.start := by
  fun_induction innerSpans offset gaps inners with
  | case1 offset gap gaps inner inners ih =>
    rcases List.mem_cons.1 h with rfl | h
    · simp
    · have := ih h
      omega
  | case2 => cases h

/-- The inner texts lie one after the other. -/
theorem pairwise_innerSpans {offset : Nat} {gaps inners : List Text} (hne : ∀ t ∈ inners, t ≠ []) :
    (innerSpans offset gaps inners).Pairwise fun s s' => s.start < s'.start := by
  fun_induction innerSpans offset gaps inners with
  | case1 offset gap gaps inner inners ih =>
    refine List.pairwise_cons.2 ⟨fun s hs => ?_, ih fun t ht => hne t (List.mem_cons_of_mem _ ht)⟩
    have := le_start_of_mem_innerSpans hs
    have := Text.size_pos (hne inner List.mem_cons_self)
    show offset + gap.size < s.start
    omega
  | case2 => exact List.Pairwise.nil

namespace Edit

/-- Ascending edits are applied in the opposite order. -/
theorem latestFirst_of_pairwise {edits : List Edit}
    (h : edits.Pairwise fun d e => d.span.start < e.span.start) : latestFirst edits = edits.reverse := by
  induction edits with
  | nil => rfl
  | cons e edits ih =>
    obtain ⟨he, hrest⟩ := List.pairwise_cons.1 h
    have hinsert : latestFirst (e :: edits) = insertLatest e (latestFirst edits) := rfl
    have hlast := insertLatest_append (fun d hd => he d (List.mem_reverse.1 hd)) []
    rw [List.append_nil] at hlast
    rw [hinsert, ih hrest, hlast, List.reverse_cons]
    rfl

end Edit

/-! ## Edits of the inner texts -/

section
variable {α : Type} (span : α → Span) (old : α → Text) (new? : α → Option Text)

/-- The edits reach back to front, so each finds the text in front of its span still untouched. -/
theorem foldr_replaceIn {es : List α} (front : Text) {gaps : List Text}
    (hlen : gaps.length = es.length + 1)
    (hspans : es.map span = innerSpans front.size gaps (es.map old)) :
    (es.filterMap fun e => (new? e).map (Edit.mk (span e))).foldr Edit.replaceIn
        (front ++ interpolate gaps (es.map old)) =
      front ++ interpolate gaps (es.map fun e => (new? e).getD (old e)) := by
  induction es generalizing front gaps with
  | nil => rfl
  | cons d es ih =>
    obtain ⟨gap, gaps, rfl⟩ := List.exists_cons_of_length_eq_add_one hlen
    simp only [List.map_cons, innerSpans, List.cons.injEq] at hspans
    obtain ⟨hspan, hspans⟩ := hspans
    have hrest := ih (front ++ gap ++ old d) (by simpa using hlen) (by simpa [Nat.add_assoc] using hspans)
    simp only [List.map_cons, interpolate_cons_cons, ← List.append_assoc]
    cases hnew : new? d with
    | none =>
      rw [List.filterMap_cons_none (by simp [hnew]), hrest]
      rfl
    | some new =>
      rw [List.filterMap_cons_some (b := ⟨span d, new⟩) (by simp [hnew]), List.foldr_cons, hrest, hspan,
        ← Text.size_append, Edit.replaceIn_append]
      rfl

theorem applyEdits_interpolate {es : List α} {gaps : List Text} (hlen : gaps.length = es.length + 1)
    (hspans : es.map span = innerSpans 0 gaps (es.map old)) (hne : ∀ e ∈ es, old e ≠ []) :
    applyEdits (interpolate gaps (es.map old)) (es.filterMap fun e => (new? e).map (Edit.mk (span e))) =
      interpolate gaps (es.map fun e => (new? e).getD (old e)) := by
  have hstarts : (es.map span).Pairwise fun s s' => s.start < s'.start := by
    rw [hspans]
    exact pairwise_innerSpans (by simpa using hne)
  have hedits : (es.filterMap fun e => (new? e).map (Edit.mk (span e))).Pairwise
      fun d e => d.span.start < e.span.start := by
    rw [List.pairwise_filterMap]
    refine (List.pairwise_map.1 hstarts).imp fun {a b} hab d hd e he => ?_
    obtain ⟨_, -, rfl⟩ := Option.map_eq_some_iff.1 hd
    obtain ⟨_, -, rfl⟩ := Option.map_eq_some_iff.1 he
    exact hab
  rw [applyEdits, Edit.latestFirst_of_pairwise hedits, List.foldl_reverse]
  exact foldr_replaceIn span old new? [] hlen hspans

end

end GraphqlBuild
