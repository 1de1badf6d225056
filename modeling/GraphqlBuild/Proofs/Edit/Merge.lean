import GraphqlBuild.Literal
import GraphqlBuild.Proofs.Edit.Fit
import GraphqlBuild.Proofs.Edit.Order
import GraphqlBuild.Proofs.Text.Splice
import Mathlib.Data.List.Sort
/-!
# Edits of spans that lie apart

Spans in the text of which none reaches into another leave pieces of the text between them (`Text.outside`). Edits of
such spans put their new texts between these pieces, in the order of the spans (`applyEdits_of_apart`), and an edit
can be left out exactly if its new text is there already.
-/

namespace GraphqlBuild

/-- The pieces of the text from `offset` on: up to the first span, between each two spans, and behind the last. -/
def Text.outside (t : Text) (offset : Nat) : List Span → List Text
  | [] => [(t.slice? offset t.size).getD []]
  | s :: spans => (t.slice? offset s.start).getD [] :: t.outside s.stop spans

/-- The first span ends before the second begins, or where it begins. -/
def Span.Before (s s' : Span) : Prop := s.stop ≤ s'.start

/-- One of the spans starts first, and ends before the other begins or where it begins. -/
def Span.Apart (s s' : Span) : Prop :=
  s.start < s'.start ∧ s.Before s' ∨ s'.start < s.start ∧ s'.Before s

instance (s s' : Span) : Decidable (s.Before s') := inferInstanceAs (Decidable (s.stop ≤ s'.start))

instance (s s' : Span) : Decidable (s.Apart s') :=
  inferInstanceAs (Decidable (s.start < s'.start ∧ s.Before s' ∨ s'.start < s.start ∧ s'.Before s))

namespace Edit

/-- The pieces of the text outside of the spans, with the new texts between them. -/
def merge (t : Text) (edits : List Edit) : Text :=
  interpolate (t.outside 0 (edits.map (·.span))) (edits.map (·.newText))

/-- The edit that puts what the text has in the span there again. -/
def undone (e : Edit) (t : Text) : Edit := ⟨e.span, (e.span.slice? t).getD []⟩

/-- The edits by ascending start. -/
def earliestFirst (edits : List Edit) : List Edit := edits.insertionSort fun d e => d.span.start ≤ e.span.start

end Edit

/-! ## The pieces of a text -/

/-- With what the spans cover between them the pieces make the text, and the spans are where they should be. -/
theorem Text.outside_spec {t a b : Text} (ht : t = a ++ b) {spans : List Span} (hfits : ∀ s ∈ spans, s.Fits t)
    (hbefore : spans.Pairwise Span.Before) (hfront : ∀ s ∈ spans, a.size ≤ s.start) :
    a ++ interpolate (t.outside a.size spans) (spans.map fun s => (s.slice? t).getD []) = t ∧
      innerSpans a.size (t.outside a.size spans) (spans.map fun s => (s.slice? t).getD []) = spans := by
  induction spans generalizing a b with
  | nil =>
    have hrest : t.slice? a.size t.size = some b := by
      rw [ht]
      exact slice?_append_size a b
    simp only [outside, hrest, Option.getD_some, List.map_nil, interpolate_singleton, innerSpans]
    exact ⟨ht.symm, trivial⟩
  | cons s spans ih =>
    obtain ⟨p, o, c, hpoc, hs⟩ := Span.fits_iff.1 (hfits s List.mem_cons_self)
    obtain ⟨hnext, hbefore⟩ := List.pairwise_cons.1 hbefore
    have hstart : a.size ≤ p.size := by simpa [hs] using hfront s List.mem_cons_self
    obtain ⟨gap, rfl, -⟩ := exists_append_of_size_le (ht.symm.trans (hpoc.trans (List.append_assoc p o c))) hstart
    have hgap : t.slice? a.size s.start = some gap := by
      rw [hpoc, hs, List.append_assoc _ o c, size_append]
      exact slice?_append a gap (o ++ c)
    have hinner : s.slice? t = some o := by
      rw [hpoc]
      exact Edit.slice?_of_span_eq hs
    have hstop : s.stop = (a ++ gap ++ o).size := by rw [hs, size_append _ o]
    have hfront : ∀ s' ∈ spans, (a ++ gap ++ o).size ≤ s'.start := by
      intro s' hs'
      rw [← hstop]
      exact hnext s' hs'
    obtain ⟨htext, hspans⟩ := ih hpoc (fun s' hs' => hfits s' (List.mem_cons_of_mem _ hs')) hbefore hfront
    rw [← hstop] at htext hspans
    simp only [outside, List.map_cons, hgap, hinner, Option.getD_some, interpolate_cons_cons, innerSpans]
    refine ⟨?_, ?_⟩
    · simpa using htext
    · rw [← size_append, ← size_append, ← hstop, hspans, hs]

@[simp] theorem Text.length_outside (t : Text) (offset : Nat) (spans : List Span) :
    (t.outside offset spans).length = spans.length + 1 := by
  induction spans generalizing offset with
  | nil => rfl
  | cons s spans ih => rw [outside, List.length_cons, ih, List.length_cons]

/-- Each inner text is found between the gaps. -/
theorem infix_interpolate {gaps inners : List Text} (hlen : gaps.length = inners.length + 1) {w : Text}
    (hw : w ∈ inners) : w <:+: interpolate gaps inners := by
  induction inners generalizing gaps with
  | nil => cases hw
  | cons inner inners ih =>
    obtain ⟨gap, gaps, rfl⟩ := List.exists_cons_of_length_eq_add_one hlen
    rw [interpolate_cons_cons]
    rcases List.mem_cons.1 hw with rfl | hw
    · exact ⟨gap, interpolate gaps inners, rfl⟩
    · exact (ih (by simpa using hlen) hw).trans (List.suffix_append _ _).isInfix

/-! ## Merged edits -/

namespace Edit
variable {t : Text} {edits : List Edit}

theorem infix_merge {e : Edit} (h : e ∈ edits) : e.newText <:+: merge t edits :=
  infix_interpolate (by simp) (List.mem_map_of_mem h)

/-- The text and the spans, taken from the pieces. -/
theorem outside_spec (hfits : ∀ e ∈ edits, e.span.Fits t) (hbefore : edits.Pairwise fun d e => d.span.Before e.span) :
    interpolate (t.outside 0 (edits.map (·.span))) (edits.map fun e => (e.span.slice? t).getD []) = t ∧
      innerSpans 0 (t.outside 0 (edits.map (·.span))) (edits.map fun e => (e.span.slice? t).getD []) =
        edits.map (·.span) := by
  have hspans : ∀ s ∈ edits.map (·.span), s.Fits t := by simpa using hfits
  have hpieces := Text.outside_spec (a := []) (b := t) rfl hspans (List.pairwise_map.2 hbefore) (by simp)
  rwa [List.map_map, List.nil_append, Text.size_nil] at hpieces

theorem merge_undone (hfits : ∀ e ∈ edits, e.span.Fits t)
    (hbefore : edits.Pairwise fun d e => d.span.Before e.span) : merge t (edits.map (·.undone t)) = t := by
  have htext := (outside_spec hfits hbefore).1
  simpa [merge, undone, Function.comp_def] using htext

/-- Edits that follow one another make the merged text; those without effect may be left out. -/
theorem foldr_replaceIn_filter (hfits : ∀ e ∈ edits, e.span.Fits t)
    (hbefore : edits.Pairwise fun d e => d.span.Before e.span) {keep : Edit → Bool}
    (hkeep : ∀ e ∈ edits, keep e = false → e.isNoop t = true) :
    (edits.filter keep).foldr replaceIn t = merge t edits := by
  let old : Edit → Text := fun e => (e.span.slice? t).getD []
  let new? : Edit → Option Text := fun e => if keep e then some e.newText else none
  obtain ⟨htext, hspans⟩ := outside_spec hfits hbefore
  have hedits : edits.filter keep = edits.filterMap fun e => (new? e).map (Edit.mk e.span) := by
    rw [← List.filterMap_eq_filter]
    refine List.filterMap_congr fun e _ => ?_
    by_cases hk : keep e = true <;> simp [new?, Option.guard, hk]
  have hnew : ∀ e ∈ edits, (new? e).getD (old e) = e.newText := by
    intro e he
    by_cases hk : keep e = true
    · simp [new?, hk]
    · have hnoop := hkeep e he (by simpa using hk)
      simp [new?, old, hk, beq_iff_eq.1 hnoop]
  have hlen : (t.outside 0 (edits.map (·.span))).length = edits.length + 1 := by simp
  have hfold := foldr_replaceIn (·.span) old new? [] hlen hspans.symm
  have htext : interpolate (t.outside 0 (edits.map (·.span))) (edits.map old) = t := htext
  rw [← hedits, List.nil_append, List.nil_append, List.map_congr_left hnew, htext] at hfold
  exact hfold

/-- Edits that follow one another from the last applied to the first make the merged text. -/
theorem applyEdits_filter_eq_merge (hfits : ∀ e ∈ edits, e.span.Fits t)
    (hbefore : (latestFirst edits).Pairwise fun d e => e.span.Before d.span) {keep : Edit → Bool}
    (hkeep : ∀ e ∈ edits, keep e = false → e.isNoop t = true) :
    applyEdits t (edits.filter keep) = merge t (latestFirst edits).reverse := by
  rw [applyEdits, ← filter_latestFirst, ← List.foldr_reverse, ← List.filter_reverse]
  refine foldr_replaceIn_filter (fun e he => ?_) (List.pairwise_reverse.2 hbefore) fun e he => ?_
  · exact hfits e (mem_latestFirst.1 (List.mem_reverse.1 he))
  · exact hkeep e (mem_latestFirst.1 (List.mem_reverse.1 he))

theorem applyEdits_eq_merge (hfits : ∀ e ∈ edits, e.span.Fits t)
    (hbefore : (latestFirst edits).Pairwise fun d e => e.span.Before d.span) :
    applyEdits t edits = merge t (latestFirst edits).reverse := by
  have hkeep : ∀ e ∈ edits, (fun _ : Edit => true) e = false → e.isNoop t = true := by simp
  have hmerge := applyEdits_filter_eq_merge hfits hbefore hkeep
  rwa [List.filter_true] at hmerge

/-- Spans that lie apart follow one another in the order of application. -/
theorem before_latestFirst (hapart : edits.Pairwise fun d e => d.span.Apart e.span) :
    (latestFirst edits).Pairwise fun d e => e.span.Before d.span := by
  refine pairwise_latestFirst (hapart.imp fun {d e} h => ?_)
  rcases h with ⟨hlt, hbefore⟩ | ⟨hlt, hbefore⟩
  · exact ⟨fun _ => hbefore, fun hle => by omega⟩
  · exact ⟨fun hlt' => by omega, fun _ => hbefore⟩

/-- No two edits start at the same offset, so there is one ascending order only. -/
theorem earliestFirst_eq (hapart : edits.Pairwise fun d e => d.span.Apart e.span) :
    earliestFirst edits = (latestFirst edits).reverse := by
  have : Std.Total fun d e : Edit => d.span.start ≤ e.span.start := ⟨fun _ _ => Nat.le_total _ _⟩
  have : IsTrans Edit fun d e : Edit => d.span.start ≤ e.span.start := ⟨fun _ _ _ => Nat.le_trans⟩
  have hsorted : (earliestFirst edits).Pairwise fun d e => d.span.start ≤ e.span.start :=
    List.pairwise_insertionSort _ edits
  have hperm : (earliestFirst edits).Perm edits := List.perm_insertionSort _ edits
  have hne : edits.Pairwise fun d e => d.span.start ≠ e.span.start := by
    refine hapart.imp fun {d e} h => ?_
    rcases h with h | h <;> omega
  have hinj : ∀ d ∈ edits, ∀ e ∈ edits, d.span.start = e.span.start → d = e := by
    refine fun d hd e he => List.Pairwise.forall_of_forall_of_flip (R := fun d e => d.span.start = e.span.start → d = e)
      (fun _ _ _ => rfl) ?_ ?_ hd he
    · exact hne.imp fun h heq => absurd heq h
    · exact hne.imp fun h heq => absurd heq.symm h
  refine List.Perm.eq_of_pairwise (fun d e hd he hle hge => ?_) hsorted
    (List.pairwise_reverse.2 (descending_latestFirst edits))
    (hperm.trans ((List.reverse_perm _).trans (perm_latestFirst edits)).symm)
  exact hinj d (hperm.mem_iff.1 hd) e (mem_latestFirst.1 (List.mem_reverse.1 he)) (Nat.le_antisymm hle hge)

theorem applyEdits_singleton (e : Edit) (t : Text) : applyEdits t [e] = e.replaceIn t := rfl

end Edit

/-- **Edits of spans that lie apart**, in any order of the list: the pieces of the text outside of the spans stay, and
the new texts come between them by ascending start, where the old ones would make the text again. Edits without effect
may be left out, and those are the edits that leave the text as it is when applied alone. -/
theorem applyEdits_of_apart {t : Text} {edits : List Edit} (hfits : ∀ e ∈ edits, e.span.Fits t)
    (hapart : edits.Pairwise fun d e => d.span.Apart e.span) :
    applyEdits t edits = Edit.merge t (Edit.earliestFirst edits) ∧
      Edit.merge t ((Edit.earliestFirst edits).map (·.undone t)) = t ∧
      (∀ replacements : List (EmbeddedText × Text), replacements.map (fun r => ⟨r.1.interior, r.2⟩) = edits →
        spliceLiterals t replacements = applyEdits t edits) ∧
      ∀ e : Edit, e.span.Fits t → (e.isNoop t = true ↔ applyEdits t [e] = t) := by
  have hbefore := Edit.before_latestFirst hapart
  have hmerge := Edit.applyEdits_eq_merge hfits hbefore
  rw [Edit.earliestFirst_eq hapart]
  refine ⟨hmerge, ?_, fun replacements hreplacements => ?_, fun e he => ?_⟩
  · refine Edit.merge_undone (fun e he => ?_) (List.pairwise_reverse.2 hbefore)
    exact hfits e (Edit.mem_latestFirst.1 (List.mem_reverse.1 he))
  · rw [spliceLiterals, hreplacements, hmerge]
    exact Edit.applyEdits_filter_eq_merge hfits hbefore fun e _ hkeep => by simpa using hkeep
  · rw [Edit.applyEdits_singleton, Edit.isNoop_iff he]

/-- A replacement, a deletion that touches it, and an insertion, given from the last to the first. -/
theorem applyEdits_of_apart_accents :
    let t : Text := "é(a)b"
    let edits : List Edit := [⟨⟨5, 5⟩, "ü"⟩, ⟨⟨3, 4⟩, []⟩, ⟨⟨0, 3⟩, "e["⟩]
    (∀ e ∈ edits, e.span.Fits t) ∧ (edits.Pairwise fun d e => d.span.Apart e.span) ∧
      applyEdits t edits = ("e[)üb" : Text) := by
  intro t edits
  have hfits : ∀ e ∈ edits, e.span.Fits t := by decide
  have hapart : edits.Pairwise fun d e => d.span.Apart e.span := by decide
  have hmerge : Edit.merge t (Edit.earliestFirst edits) = ("e[)üb" : Text) := by decide
  exact ⟨hfits, hapart, (applyEdits_of_apart hfits hapart).1.trans hmerge⟩

end GraphqlBuild
