import GraphqlBuild.Proofs.Edit.Fit
import GraphqlBuild.Proofs.Edit.Order
/-!
# Insertions into other spans

An insertion has no byte, so it shares none with an edit whose span it lies in (`Span.InsertsInto`). It is applied
before that edit if it comes first in the list, and what the edit then finds in its span begins with the inserted text
(`Edit.inTurn_insertion`). To tell such a pair from the edits around it these are given new texts of the old sizes
(`Span.fill`), which move nothing.
-/

namespace GraphqlBuild

namespace Span
variable {s s' : Span}

/-- The byte is one of the span's. An empty span has none. -/
def Covers (s : Span) (n : Nat) : Prop := s.start ≤ n ∧ n < s.stop

/-- The spans share no byte. -/
def Disjoint (s s' : Span) : Prop := ∀ n, ¬(s.Covers n ∧ s'.Covers n)

/-- The first span is empty and lies in front of a byte of the second. -/
def InsertsInto (s s' : Span) : Prop := s.start = s.stop ∧ s'.Covers s.start

instance (s : Span) (n : Nat) : Decidable (s.Covers n) := inferInstanceAs (Decidable (s.start ≤ n ∧ n < s.stop))

instance (s s' : Span) : Decidable (s.InsertsInto s') :=
  inferInstanceAs (Decidable (s.start = s.stop ∧ s'.Covers s.start))

theorem Disjoint.symm (h : s.Disjoint s') : s'.Disjoint s := fun n hn => h n hn.symm

theorem disjoint_iff : s.Disjoint s' ↔
    ¬s.Covers s'.start ∧ ¬s'.Covers s.start ∨ s.stop ≤ s.start ∨ s'.stop ≤ s'.start := by
  constructor
  · intro h
    by_cases hs : s.start < s.stop
    · by_cases hs' : s'.start < s'.stop
      · exact .inl ⟨fun hc => h _ ⟨hc, Nat.le_refl _, hs'⟩, fun hc => h _ ⟨⟨Nat.le_refl _, hs⟩, hc⟩⟩
      · exact .inr (.inr (by omega))
    · exact .inr (.inl (by omega))
  · rintro h n ⟨hn, hn'⟩
    simp only [Covers] at h hn hn'
    omega

instance (s s' : Span) : Decidable (s.Disjoint s') := decidable_of_iff _ disjoint_iff.symm

/-- A span that starts no later than a byte of the other ends before it, and has no byte if it starts there. -/
theorem Disjoint.stop_le (h : s.Disjoint s') {n : Nat} (hn : s.Covers n) (hle : s'.start ≤ n) : s'.stop ≤ n := by
  by_cases hlt : n < s'.stop
  · exact absurd ⟨hn, hle, hlt⟩ (h n)
  · omega

/-- The edit that overwrites the span with spaces. -/
def fill (s : Span) : Edit := ⟨s, List.replicate s.length ' '⟩

@[simp] theorem span_fill (s : Span) : s.fill.span = s := rfl

end Span

theorem Text.size_replicate {c : Char} (hc : c.utf8Size = 1) (n : Nat) : Text.size (List.replicate n c) = n := by
  induction n with
  | zero => rfl
  | succ n ih =>
    rw [List.replicate_succ, size_cons, hc, ih]
    omega

namespace Edit
variable {e i r : Edit} {edits front middle : List Edit} {a b t : Text}

/-- The new text has as many bytes as the span. -/
def KeepsSize (e : Edit) : Prop := e.newText.size = e.span.length

theorem keepsSize_fill (s : Span) : s.fill.KeepsSize := Text.size_replicate (by decide) _

/-- Nothing in place of nothing. -/
def IsIdle (e : Edit) : Prop := e.span.stop ≤ e.span.start ∧ e.newText = []

theorem isIdle_fill {s : Span} (h : s.stop ≤ s.start) : s.fill.IsIdle := by
  have hlength : s.length = 0 := Nat.sub_eq_zero_of_le h
  exact ⟨h, by simp [Span.fill, hlength]⟩

/-! ## Edits in turn -/

theorem size_inTurn (h : ∀ e ∈ edits, e.KeepsSize) (t : Text) : (inTurn edits t).size = t.size := by
  induction edits generalizing t with
  | nil => rfl
  | cons e edits ih =>
    rw [inTurn_cons, ih fun d hd => h d (List.mem_cons_of_mem _ hd), size_replaceIn (h e List.mem_cons_self)]

theorem inTurn_of_isIdle (h : ∀ e ∈ edits, e.IsIdle) (t : Text) : inTurn edits t = t := by
  induction edits with
  | nil => rfl
  | cons e edits ih =>
    obtain ⟨hspan, hnew⟩ := h e List.mem_cons_self
    rw [inTurn_cons, replaceIn_of_idle hspan hnew, ih fun d hd => h d (List.mem_cons_of_mem _ hd)]

/-- What stands in front of all spans stays. -/
theorem exists_inTurn_append (h : ∀ e ∈ edits, a.size ≤ e.span.start) (b : Text) :
    ∃ w, inTurn edits (a ++ b) = a ++ w := by
  induction edits generalizing b with
  | nil => exact ⟨b, rfl⟩
  | cons e edits ih =>
    obtain ⟨w, hw⟩ := exists_replaceIn_append (b := b) (h e List.mem_cons_self)
    rw [inTurn_cons, hw]
    exact ih (fun d hd => h d (List.mem_cons_of_mem _ hd)) w

/-- What stands behind all spans stays. -/
theorem inTurn_append_left (hsize : ∀ e ∈ edits, e.KeepsSize) (hstop : ∀ e ∈ edits, e.span.stop ≤ a.size) (b : Text) :
    inTurn edits (a ++ b) = inTurn edits a ++ b := by
  induction edits generalizing a with
  | nil => rfl
  | cons e edits ih =>
    rw [inTurn_cons, inTurn_cons, replaceIn_append_left (hstop e List.mem_cons_self)]
    refine ih (fun d hd => hsize d (List.mem_cons_of_mem _ hd)) fun d hd => ?_
    rw [size_replaceIn (hsize e List.mem_cons_self)]
    exact hstop d (List.mem_cons_of_mem _ hd)

/-- An insertion, edits behind it that keep the size, and insertions of nothing. -/
theorem inTurn_insertion (hi : i.span = ⟨a.size, a.size⟩)
    (hfront : ∀ e ∈ front, e.KeepsSize ∧ a.size ≤ e.span.start) (hmiddle : ∀ e ∈ middle, e.IsIdle) (b : Text) :
    ∃ w : Text, w.size = b.size ∧ inTurn (front ++ i :: middle) (a ++ b) = a ++ i.newText ++ w := by
  obtain ⟨w, hw⟩ := exists_inTurn_append (fun e he => (hfront e he).2) b
  have hsize := size_inTurn (fun e he => (hfront e he).1) (a ++ b)
  rw [hw, Text.size_append, Text.size_append] at hsize
  refine ⟨w, by omega, ?_⟩
  rw [inTurn_append, hw, inTurn_cons, replaceIn_insertion hi, inTurn_of_isIdle hmiddle]

/-! ## A pair and the edits around it -/

/-- Two edits given in the order in which they are applied, among all others. -/
theorem exists_latestFirst_cons_cons (h : r.span.start ≤ i.span.start) (edits : List Edit) :
    ∃ front middle back, latestFirst (i :: r :: edits) = front ++ i :: middle ++ r :: back ∧
      (∀ e ∈ front, e ∈ edits ∧ i.span.start < e.span.start) ∧
      (∀ e ∈ middle, e ∈ edits ∧ r.span.start < e.span.start ∧ e.span.start ≤ i.span.start) ∧
      ∀ e ∈ back, e ∈ edits ∧ e.span.start ≤ r.span.start := by
  have hsorted := descending_latestFirst edits
  let later := (latestFirst edits).filter fun e => r.span.start < e.span.start
  let front := later.filter fun e => i.span.start < e.span.start
  let middle := later.filter fun e => e.span.start ≤ i.span.start
  let back := (latestFirst edits).filter fun e => e.span.start ≤ r.span.start
  have hlater : later = front ++ middle :=
    (Descending.filter_append_filter (List.Pairwise.sublist List.filter_sublist hsorted) _).symm
  have hr : insertLatest r (latestFirst edits) = front ++ (middle ++ r :: back) := by
    rw [hsorted.insertLatest_eq r, ← List.append_assoc, ← hlater]
  have hfront : ∀ e ∈ front, e ∈ edits ∧ i.span.start < e.span.start := by
    intro e he
    simp only [front, later, List.mem_filter, mem_latestFirst, decide_eq_true_eq] at he
    exact ⟨he.1.1, he.2⟩
  have hmiddle : ∀ e ∈ middle, e ∈ edits ∧ r.span.start < e.span.start ∧ e.span.start ≤ i.span.start := by
    intro e he
    simp only [middle, later, List.mem_filter, mem_latestFirst, decide_eq_true_eq] at he
    exact ⟨he.1.1, he.1.2, he.2⟩
  have hback : ∀ e ∈ back, e ∈ edits ∧ e.span.start ≤ r.span.start := by
    intro e he
    simpa [back, mem_latestFirst] using he
  refine ⟨front, middle, back, ?_, hfront, hmiddle, hback⟩
  have hrest : ∀ e ∈ middle ++ r :: back, e.span.start ≤ i.span.start := by
    intro e he
    rcases List.mem_append.1 he with he | he
    · exact (hmiddle e he).2.2
    · rcases List.mem_cons.1 he with rfl | he
      · exact h
      · have := (hback e he).2
        omega
  calc latestFirst (i :: r :: edits) = insertLatest i (front ++ (middle ++ r :: back)) := congrArg _ hr
    _ = front ++ i :: (middle ++ r :: back) := by
      rw [insertLatest_append fun e he => (hfront e he).2, insertLatest_of_le hrest]
    _ = front ++ i :: middle ++ r :: back := by rw [← List.cons_append, ← List.append_assoc]

/-- An insertion into a span given before the edit of that span, among edits that keep the size of spans that share no
byte with it: between the two nothing happens. -/
theorem exists_latestFirst_insertion {others : List Span} (hinto : i.span.InsertsInto r.span)
    (hdisjoint : ∀ s ∈ others, r.span.Disjoint s) :
    ∃ front middle back, latestFirst (i :: r :: others.map Span.fill) = front ++ i :: middle ++ r :: back ∧
      (∀ e ∈ front, e.KeepsSize ∧ i.span.start ≤ e.span.start) ∧ (∀ e ∈ middle, e.IsIdle) ∧
      ∀ e ∈ back, e.KeepsSize ∧ e.span.stop ≤ r.span.start := by
  obtain ⟨-, hstart, hstop⟩ := hinto
  obtain ⟨front, middle, back, horder, hfront, hmiddle, hback⟩ :=
    exists_latestFirst_cons_cons hstart (others.map Span.fill)
  refine ⟨front, middle, back, horder, fun e he => ?_, fun e he => ?_, fun e he => ?_⟩
  · obtain ⟨hmem, hlater⟩ := hfront e he
    obtain ⟨s, -, rfl⟩ := List.mem_map.1 hmem
    exact ⟨keepsSize_fill s, Nat.le_of_lt hlater⟩
  · obtain ⟨hmem, hlater, hle⟩ := hmiddle e he
    obtain ⟨s, hs, rfl⟩ := List.mem_map.1 hmem
    have hcovers : r.span.Covers s.start := ⟨Nat.le_of_lt hlater, Nat.lt_of_le_of_lt hle hstop⟩
    exact isIdle_fill ((hdisjoint s hs).stop_le hcovers (Nat.le_refl _))
  · obtain ⟨hmem, hle⟩ := hback e he
    obtain ⟨s, hs, rfl⟩ := List.mem_map.1 hmem
    have hcovers : r.span.Covers r.span.start := ⟨Nat.le_refl _, Nat.lt_of_le_of_lt hstart hstop⟩
    exact ⟨keepsSize_fill s, (hdisjoint s hs).stop_le hcovers hle⟩

/-- Two edits of one start, given in either order, among all others. -/
theorem exists_latestFirst_swap (h : i.span.start = r.span.start) (edits : List Edit) :
    ∃ front back, latestFirst (i :: r :: edits) = front ++ i :: r :: back ∧
      latestFirst (r :: i :: edits) = front ++ r :: i :: back ∧
      (∀ e ∈ front, e ∈ edits ∧ i.span.start < e.span.start) ∧ ∀ e ∈ back, e ∈ edits ∧ e.span.start ≤ i.span.start := by
  have hsorted := descending_latestFirst edits
  let front := (latestFirst edits).filter fun e => i.span.start < e.span.start
  let back := (latestFirst edits).filter fun e => e.span.start ≤ i.span.start
  have hpair : ∀ d e : Edit, d.span.start = i.span.start → e.span.start = i.span.start →
      latestFirst (d :: e :: edits) = front ++ d :: e :: back := by
    intro d e hd he
    have hinsert : insertLatest e (latestFirst edits) = front ++ e :: back := by
      rw [hsorted.insertLatest_eq e, he]
    calc latestFirst (d :: e :: edits) = insertLatest d (front ++ e :: back) := congrArg _ hinsert
      _ = front ++ d :: e :: back := by
        rw [insertLatest_append (by simp [front, hd]), insertLatest_of_le (by simp [back, hd, he])]
  refine ⟨front, back, hpair i r rfl h.symm, hpair r i h.symm rfl, fun e he => ?_, fun e he => ?_⟩
  · simpa [front, mem_latestFirst] using he
  · simpa [back, mem_latestFirst] using he

end Edit

end GraphqlBuild
