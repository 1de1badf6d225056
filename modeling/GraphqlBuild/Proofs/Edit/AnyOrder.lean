import GraphqlBuild.Proofs.Edit.Insertion
import GraphqlBuild.Proofs.Edit.Merge
/-!
# Edits in any order of the list

Edits may be given in any order if their spans lie apart, and then each new text is found in the result; edits that
share no byte may still start at the same offset. Two insertions there come out in the opposite order of the list, and
an edit that starts where an insertion before it in the list stands, or around it, overwrites what was inserted. So
edits of given spans that share no byte may be given in any order, whatever their new texts, exactly if the spans lie
apart (`orderFree_iff`).
-/

namespace GraphqlBuild

/-- Every order of the edits makes the same text, and each new text is found in it. -/
def OrderFree (t : Text) (edits : List Edit) : Prop :=
  (∀ p : List Edit, p.Perm edits → applyEdits t p = applyEdits t edits) ∧
    ∀ e ∈ edits, e.newText <:+: applyEdits t edits

namespace Edit
variable {t : Text} {edits : List Edit}

/-- The spans lie apart, or both edits insert at one offset, and it does not matter which text comes first. -/
def Compatible (d e : Edit) : Prop :=
  d.span.Apart e.span ∨
    d.span = e.span ∧ d.span.start = d.span.stop ∧ d.newText ++ e.newText = e.newText ++ d.newText

instance (d e : Edit) : Decidable (Compatible d e) :=
  inferInstanceAs (Decidable (d.span.Apart e.span ∨
    d.span = e.span ∧ d.span.start = d.span.stop ∧ d.newText ++ e.newText = e.newText ++ d.newText))

theorem Compatible.exchange {d e : Edit} (h : Compatible d e) (hstart : d.span.start = e.span.start) :
    Exchange d e := by
  rcases h with h | ⟨hspan, hempty, hnew⟩
  · rcases h with h | h <;> omega
  · intro t
    by_cases hfits : d.span.Fits t
    · obtain ⟨a, b, rfl, hd⟩ := hfits.exists_of_empty hempty
      have he : e.span = ⟨a.size, a.size⟩ := hspan ▸ hd
      rw [replaceIn_replaceIn_insertion hd he, replaceIn_replaceIn_insertion he hd, hnew]
    · have hfits' : ¬e.span.Fits t := hspan ▸ hfits
      rw [replaceIn_of_not_fits hfits, replaceIn_of_not_fits hfits', replaceIn_of_not_fits hfits]

theorem Compatible.before {d e : Edit} (h : Compatible d e) :
    (d.span.start < e.span.start → d.span.Before e.span) ∧ (e.span.start ≤ d.span.start → e.span.Before d.span) := by
  rcases h with (⟨hlt, hbefore⟩ | ⟨hlt, hbefore⟩) | ⟨hspan, hempty, -⟩
  · exact ⟨fun _ => hbefore, fun hle => by omega⟩
  · exact ⟨fun hlt' => by omega, fun _ => hbefore⟩
  · rw [← hspan]
    exact ⟨fun hlt => by omega, fun _ => hempty.ge⟩

/-- Compatible edits may be given in any order. -/
theorem orderFree_of_compatible (hfits : ∀ e ∈ edits, e.span.Fits t) (h : edits.Pairwise Compatible) :
    OrderFree t edits := by
  refine ⟨fun p hp => applyEdits_perm_of_exchange hp (h.imp fun hde => hde.exchange) t, fun e he => ?_⟩
  rw [applyEdits_eq_merge hfits (pairwise_latestFirst (h.imp fun hde => hde.before))]
  exact infix_merge (List.mem_reverse.2 (mem_latestFirst.2 he))

end Edit

/-! ## Spans that do not lie apart -/

/-- Spans that share no byte lie apart, or one inserts into the other, or both insert at one offset. -/
theorem Span.Disjoint.apart_or {s s' : Span} (h : s.Disjoint s') (hs : s.start ≤ s.stop) (hs' : s'.start ≤ s'.stop) :
    s.Apart s' ∨ s.InsertsInto s' ∨ s'.InsertsInto s ∨ s = s' ∧ s.start = s.stop := by
  obtain ⟨a, b⟩ := s
  obtain ⟨c, d⟩ := s'
  simp only [Span.disjoint_iff, Covers, Apart, Before, InsertsInto, Span.mk.injEq] at *
  omega

theorem exists_perm_of_not_pairwise {α : Type} {R : α → α → Prop} {l : List α} (h : ¬l.Pairwise R) :
    ∃ a b rest, (a :: b :: rest).Perm l ∧ ¬R a b := by
  induction l with
  | nil => exact absurd .nil h
  | cons a l ih =>
    by_cases hl : l.Pairwise R
    · have hhead : ¬∀ b ∈ l, R a b := fun ha => h (List.pairwise_cons.2 ⟨ha, hl⟩)
      simp only [not_forall] at hhead
      obtain ⟨b, hb, hab⟩ := hhead
      obtain ⟨front, back, rfl⟩ := List.append_of_mem hb
      exact ⟨a, b, front ++ back, List.perm_middle.symm.cons a, hab⟩
    · obtain ⟨b, c, rest, hperm, hbc⟩ := ih hl
      have hmove : ([b, c] ++ a :: rest).Perm (a :: ([b, c] ++ rest)) := List.perm_middle
      exact ⟨b, c, a :: rest, hmove.trans (hperm.cons a), hbc⟩

/-- A word without `c` does not reach over `c`. -/
theorem infix_or_of_append_cons {α : Type} {c : α} {w l m : List α} (hc : c ∉ w) (h : w <:+: l ++ c :: m) :
    w <:+: l ∨ w <:+: m := by
  obtain ⟨front, back, heq⟩ := h
  rcases List.append_eq_append_iff.1 heq with ⟨x, hl, -⟩ | ⟨x, hfront, hback⟩
  · exact .inl ⟨front, x, hl.symm⟩
  · cases x with
    | nil => exact .inl ⟨front, [], by simpa using hfront⟩
    | cons d x =>
      obtain ⟨rfl, hm⟩ := List.cons_eq_cons.1 hback
      rcases List.append_eq_append_iff.1 hfront with ⟨y, -, hw⟩ | ⟨y, -, hy⟩
      · exact absurd (hw ▸ List.mem_append_right y List.mem_cons_self) hc
      · cases y with
        | nil => exact absurd ((List.nil_append w ▸ hy) ▸ List.mem_cons_self) hc
        | cons d y =>
          obtain ⟨rfl, hx⟩ := List.cons_eq_cons.1 hy
          exact .inr ⟨y, back, (hx ▸ hm).symm⟩

section
variable {t : Text} {i r : Span} {others : List Span}

/-- An insertion into another span, given before it: the other edit overwrites the beginning of the inserted text. -/
theorem applyEdits_insertion_into (hfits : ∀ s ∈ i :: r :: others, s.Fits t)
    (hdisjoint : (i :: r :: others).Pairwise Span.Disjoint) (hinto : i.InsertsInto r) {lost : Text}
    (hlost : lost.size = r.stop - i.start) (kept new : Text) :
    ∃ front back : Text, front.size ≤ t.size ∧ back.size ≤ t.size ∧
      applyEdits t (⟨i, lost ++ kept⟩ :: ⟨r, new⟩ :: others.map Span.fill) = front ++ new ++ kept ++ back := by
  obtain ⟨hempty, hstart, hstop⟩ := hinto
  have hr : ∀ s ∈ others, r.Disjoint s := (List.pairwise_cons.1 (List.pairwise_cons.1 hdisjoint).2).1
  obtain ⟨a, b, rfl, hi⟩ := (hfits i (by simp)).exists_of_empty hempty
  subst hi
  obtain ⟨p, inner, ha, hp⟩ := (Text.boundary_append_left hstart).1 (hfits r (by simp)).start
  obtain ⟨front, middle, back, horder, hfront, hmiddle, hback⟩ :=
    Edit.exists_latestFirst_insertion (i := ⟨⟨a.size, a.size⟩, lost ++ kept⟩) (r := ⟨r, new⟩) ⟨rfl, hstart, hstop⟩ hr
  have hsizes : ∀ e ∈ back, e.KeepsSize := fun e he => (hback e he).1
  have hstops : ∀ e ∈ back, e.span.stop ≤ p.size := fun e he => hp ▸ (hback e he).2
  obtain ⟨w, hw, hturn⟩ :=
    Edit.inTurn_insertion (i := ⟨⟨a.size, a.size⟩, lost ++ kept⟩) rfl hfront hmiddle b
  have hspan : r = ⟨p.size, p.size + (inner ++ lost).size⟩ := by
    have hsize : a.size = p.size + inner.size := by rw [ha, Text.size_append]
    rw [Text.size_append, hlost]
    obtain ⟨start, stop⟩ := r
    simp only [Span.mk.injEq] at *
    omega
  have hcut : a ++ (lost ++ kept) ++ w = p ++ (inner ++ lost) ++ (kept ++ w) := by
    rw [ha]
    simp
  refine ⟨Edit.inTurn back p, w, ?_, ?_, ?_⟩
  · rw [Edit.size_inTurn hsizes, ha, Text.size_append, Text.size_append]
    omega
  · rw [hw, Text.size_append]
    omega
  · rw [applyEdits_eq_inTurn, horder, Edit.inTurn_append, hturn, hcut, Edit.inTurn_cons,
      Edit.replaceIn_of_span_eq hspan, List.append_assoc p, Edit.inTurn_append_left hsizes hstops]
    simp

/-- So the inserted text need not be found in the result. -/
theorem exists_not_infix (hfits : ∀ s ∈ i :: r :: others, s.Fits t)
    (hdisjoint : (i :: r :: others).Pairwise Span.Disjoint) (hinto : i.InsertsInto r) :
    ∃ edits : List Edit, edits.map (·.span) = i :: r :: others ∧ ∃ e ∈ edits, ¬e.newText <:+: applyEdits t edits := by
  -- a run of one character that is longer than all the text, and that loses its beginning
  let k := r.stop - i.start
  let m := t.size + 1
  have hk : 0 < k := Nat.sub_pos_of_lt hinto.2.2
  let inserted : Edit := ⟨i, List.replicate k 'x' ++ (List.replicate m 'x' ++ ['y'])⟩
  let written : Edit := ⟨r, ['y']⟩
  have hlost : Text.size (List.replicate k 'x') = k := Text.size_replicate (by decide) k
  obtain ⟨front, back, hfront, hback, hresult⟩ :=
    applyEdits_insertion_into hfits hdisjoint hinto hlost (List.replicate m 'x' ++ ['y']) ['y']
  refine ⟨inserted :: written :: others.map Span.fill, by simp [inserted, written, Function.comp_def],
    inserted, List.mem_cons_self, fun hfound => ?_⟩
  have hword : List.replicate (k + m) 'x' <:+: front ++ 'y' :: (List.replicate m 'x' ++ 'y' :: back) := by
    have hbegins : List.replicate (k + m) 'x' <+: inserted.newText :=
      ⟨['y'], by rw [← List.replicate_append_replicate, List.append_assoc]⟩
    have hsame : front ++ ['y'] ++ (List.replicate m 'x' ++ ['y']) ++ back =
        front ++ 'y' :: (List.replicate m 'x' ++ 'y' :: back) := by simp
    rw [← hsame, ← hresult]
    exact hbegins.isInfix.trans hfound
  have hsize : Text.size (List.replicate (k + m) 'x') = k + m := Text.size_replicate (by decide) _
  have hkept : Text.size (List.replicate m 'x') = m := Text.size_replicate (by decide) _
  have hy : 'y' ∉ List.replicate (k + m) 'x' := by simp
  -- the two `y` part the run from all other text
  rcases infix_or_of_append_cons hy hword with h | h
  · have := Text.size_le_of_infix h
    omega
  rcases infix_or_of_append_cons hy h with h | h
  · have := Text.size_le_of_infix h
    omega
  · have := Text.size_le_of_infix h
    omega

/-- Two insertions at one offset, with no other span reaching over it: the text inserted last comes first. -/
theorem applyEdits_insertions (hfits : ∀ s ∈ i :: others, s.Fits t) (hempty : i.start = i.stop)
    (hnone : ∀ s ∈ others, ¬i.InsertsInto s) (x y : Text) :
    ∃ front back : Text,
      applyEdits t (⟨i, x⟩ :: ⟨i, y⟩ :: others.map Span.fill) = front ++ (y ++ x) ++ back ∧
        applyEdits t (⟨i, y⟩ :: ⟨i, x⟩ :: others.map Span.fill) = front ++ (x ++ y) ++ back := by
  obtain ⟨a, b, rfl, hi⟩ := (hfits i (by simp)).exists_of_empty hempty
  subst hi
  obtain ⟨front, back, hxy, hyx, hfront, hback⟩ := Edit.exists_latestFirst_swap (i := ⟨⟨a.size, a.size⟩, x⟩)
    (r := ⟨⟨a.size, a.size⟩, y⟩) rfl (others.map Span.fill)
  have hback : ∀ e ∈ back, e.KeepsSize ∧ e.span.stop ≤ a.size := by
    intro e he
    obtain ⟨hmem, hle⟩ := hback e he
    obtain ⟨s, hs, rfl⟩ := List.mem_map.1 hmem
    refine ⟨Edit.keepsSize_fill s, Nat.le_of_not_lt fun hlt => ?_⟩
    exact hnone s hs ⟨rfl, hle, hlt⟩
  obtain ⟨w, hw⟩ := Edit.exists_inTurn_append (fun e he => Nat.le_of_lt (hfront e he).2) b
  have hpair : ∀ d e : Edit, d.span = ⟨a.size, a.size⟩ → e.span = ⟨a.size, a.size⟩ →
      Edit.inTurn (front ++ d :: e :: back) (a ++ b) = Edit.inTurn back a ++ (e.newText ++ d.newText) ++ w := by
    intro d e hd he
    rw [Edit.inTurn_append, hw, Edit.inTurn_cons, Edit.inTurn_cons, Edit.replaceIn_replaceIn_insertion he hd,
      List.append_assoc, Edit.inTurn_append_left (fun e he => (hback e he).1) fun e he => (hback e he).2,
      ← List.append_assoc]
  refine ⟨Edit.inTurn back a, w, ?_, ?_⟩
  · rw [applyEdits_eq_inTurn, hxy, hpair _ _ rfl rfl]
  · rw [applyEdits_eq_inTurn, hyx, hpair _ _ rfl rfl]

end

/-- **When the order of the edits does not matter**, for spans that fit and share no byte. Whatever the new texts, they
come out the same in every order, each of them whole, exactly if the spans lie apart. Edits that only insert at one
offset may be given in any order too if their texts, put together, are the same in every order. -/
theorem orderFree_iff {t : Text} {spans : List Span} (hfits : ∀ s ∈ spans, s.Fits t)
    (hdisjoint : spans.Pairwise Span.Disjoint) :
    ((∀ edits : List Edit, (edits.map (·.span)).Perm spans → OrderFree t edits) ↔ spans.Pairwise Span.Apart) ∧
      ∀ edits : List Edit, (edits.map (·.span)).Perm spans → edits.Pairwise Edit.Compatible → OrderFree t edits := by
  have hcompatible : ∀ edits : List Edit, (edits.map (·.span)).Perm spans → edits.Pairwise Edit.Compatible →
      OrderFree t edits := by
    intro edits hspans
    refine Edit.orderFree_of_compatible fun e he => hfits e.span (hspans.mem_iff.1 ?_)
    exact List.mem_map_of_mem he
  refine ⟨⟨fun hfree => ?_, fun hapart edits hspans => ?_⟩, hcompatible⟩
  · have hnone : ∀ i r rest, (i :: r :: rest).Perm spans → ¬i.InsertsInto r := by
      intro i r rest hperm hinto
      obtain ⟨edits, hspans, e, he, hnot⟩ := exists_not_infix (fun s hs => hfits s (hperm.mem_iff.1 hs))
        ((hperm.pairwise_iff fun h => h.symm).2 hdisjoint) hinto
      exact hnot ((hfree edits (hspans ▸ hperm)).2 e he)
    by_contra hapart
    obtain ⟨s, s', rest, hperm, hpair⟩ := exists_perm_of_not_pairwise hapart
    have hrest : ∀ q ∈ rest, ¬s.InsertsInto q := by
      intro q hq
      obtain ⟨front, back, rfl⟩ := List.append_of_mem hq
      have hmove : (s :: q :: s' :: (front ++ back)).Perm (s :: s' :: (front ++ q :: back)) :=
        ((List.Perm.swap s' q _).trans (List.perm_middle.symm.cons s')).cons s
      exact hnone s q _ (hmove.trans hperm)
    have hmem : ∀ q ∈ s :: s' :: rest, q.Fits t := fun q hq => hfits q (hperm.mem_iff.1 hq)
    have hshared : s.Disjoint s' := by
      have hall := (hperm.pairwise_iff fun h => h.symm).2 hdisjoint
      exact (List.pairwise_cons.1 hall).1 s' List.mem_cons_self
    rcases hshared.apart_or (hmem s (by simp)).le (hmem s' (by simp)).le with h | h | h | ⟨rfl, hempty⟩
    · exact hpair h
    · exact hnone s s' rest hperm h
    · exact hnone s' s rest ((List.Perm.swap s s' rest).trans hperm) h
    · -- two insertions at one offset
      obtain ⟨front, back, hxy, hyx⟩ := applyEdits_insertions (fun q hq => hmem q (List.mem_cons_of_mem _ hq)) hempty
        hrest ['x'] ['y']
      have hsame := (hfree (⟨s, ['x']⟩ :: ⟨s, ['y']⟩ :: rest.map Span.fill)
        (by simpa [Function.comp_def] using hperm)).1 _ (List.Perm.swap _ _ _)
      rw [hxy, hyx] at hsame
      simp at hsame
  · have hedits : (edits.map (·.span)).Pairwise Span.Apart :=
      (hspans.pairwise_iff fun {s s'} h => h.symm).2 hapart
    exact hcompatible edits hspans ((List.pairwise_map.1 hedits).imp fun h => .inl h)

/-- Two insertions of the same character at the end of a replaced one, and the same spans with other texts. -/
theorem orderFree_iff_two_insertions :
    let t : Text := "ab"
    let spans : List Span := [⟨1, 1⟩, ⟨0, 1⟩, ⟨1, 1⟩]
    (∀ s ∈ spans, s.Fits t) ∧ spans.Pairwise Span.Disjoint ∧
      OrderFree t [⟨⟨1, 1⟩, "x"⟩, ⟨⟨0, 1⟩, "é"⟩, ⟨⟨1, 1⟩, "xx"⟩] ∧
      ¬∀ edits : List Edit, (edits.map (·.span)).Perm spans → OrderFree t edits := by
  intro t spans
  have hfits : ∀ s ∈ spans, s.Fits t := by decide
  have hdisjoint : spans.Pairwise Span.Disjoint := by decide
  have hall := orderFree_iff hfits hdisjoint
  refine ⟨hfits, hdisjoint, hall.2 _ (.refl _) (by decide), ?_⟩
  rw [hall.1]
  decide

/-- An insertion and a replacement at the same offset: given first the insertion is lost, and the replaced character
stays. -/
theorem insertion_lost_at_start :
    let t : Text := "ab"
    let inserted : Edit := ⟨⟨0, 0⟩, "X"⟩
    let replaced : Edit := ⟨⟨0, 1⟩, "Y"⟩
    (inserted.span.Fits t ∧ replaced.span.Fits t ∧ inserted.span.Disjoint replaced.span) ∧
      applyEdits t [inserted, replaced] = ("Yab" : Text) ∧ applyEdits t [replaced, inserted] = ("XYb" : Text) ∧
      ¬inserted.newText <:+: applyEdits t [inserted, replaced] := by
  decide

end GraphqlBuild
