import GraphqlBuild.Proofs.Edit.Insertion
import Mathlib.Data.List.Induction
/-!
# Edits that do not fit

An edit that does not fit the text is skipped, if it does not fit the text as it is when its turn comes. For edits that
share no byte the two are the same but for one case: an insertion may lie in a span that begins in the text and does
not fit it (`Span.LetsIn`). It is applied first, and if it is long enough the other edit then fits. Without such a pair
the edits that do not fit can be left out, and where there is one there are new texts for which they cannot
(`applyEdits_filter_fits_iff`).
-/

namespace GraphqlBuild

/-- The first span inserts into the second, which begins in the text but does not fit it. -/
def Span.LetsIn (t : Text) (i s : Span) : Prop := i.Fits t ∧ i.InsertsInto s ∧ t.Boundary s.start ∧ ¬s.Fits t

instance (t : Text) (i s : Span) : Decidable (i.LetsIn t s) :=
  inferInstanceAs (Decidable (i.Fits t ∧ i.InsertsInto s ∧ t.Boundary s.start ∧ ¬s.Fits t))

namespace Edit
variable {e : Edit} {edits : List Edit} {t : Text}

/-- The edits whose span fits the text. -/
def fitting (t : Text) (edits : List Edit) : List Edit := edits.filter fun e => e.span.Fits t

/-! ## Unfit edits are skipped -/

theorem boundary_inTurn {n : Nat} (h : ∀ e ∈ edits, e.IsIdle ∨ n ≤ e.span.start) :
    (inTurn edits t).Boundary n ↔ t.Boundary n := by
  induction edits generalizing t with
  | nil => rfl
  | cons e edits ih =>
    rw [inTurn_cons, ih fun d hd => h d (List.mem_cons_of_mem _ hd)]
    rcases h e List.mem_cons_self with hidle | hstart
    · rw [replaceIn_of_idle hidle.1 hidle.2]
    · exact boundary_replaceIn hstart

/-- An edit that does not fit the text does not fit it after others either, if none of them lets it in. -/
theorem not_fits_inTurn (he : ¬e.span.Fits t) (h : ∀ d ∈ edits, d.span.Fits t ∧ e.span.start ≤ d.span.start ∧
    e.span.Disjoint d.span ∧ (d.span.LetsIn t e.span → d.newText = [])) : ¬e.span.Fits (inTurn edits t) := by
  intro hfits
  have hstart : t.Boundary e.span.start := (boundary_inTurn fun d hd => .inr (h d hd).2.1).1 hfits.start
  have hstop : t.Boundary e.span.stop := by
    refine (boundary_inTurn fun d hd => ?_).1 hfits.stop
    obtain ⟨hd, hle, hdisjoint, hlets⟩ := h d hd
    by_cases hlt : d.span.start < e.span.stop
    · have hempty := hdisjoint.stop_le ⟨hle, hlt⟩ (Nat.le_refl _)
      exact .inl ⟨hempty, hlets ⟨hd, ⟨Nat.le_antisymm hd.le hempty, hle, hlt⟩, hstart, he⟩⟩
    · exact .inr (Nat.le_of_not_lt hlt)
  exact he ⟨hfits.le, hstart, hstop⟩

theorem inTurn_fitting (hsorted : Descending edits) (hdisjoint : edits.Pairwise fun d e => d.span.Disjoint e.span)
    (hlets : ∀ d ∈ edits, ∀ e ∈ edits, d.span.LetsIn t e.span → d.newText = []) :
    inTurn (fitting t edits) t = inTurn edits t := by
  induction edits using List.reverseRecOn with
  | nil => rfl
  | append_singleton edits e ih =>
    obtain ⟨hsorted, -, hlater⟩ := List.pairwise_append.1 hsorted
    obtain ⟨hdisjoint, -, hshared⟩ := List.pairwise_append.1 hdisjoint
    have hrest := ih hsorted hdisjoint fun d hd d' hd' =>
      hlets d (List.mem_append_left _ hd) d' (List.mem_append_left _ hd')
    by_cases he : e.span.Fits t
    · have hlast : fitting t (edits ++ [e]) = fitting t edits ++ [e] := by simp [fitting, List.filter_append, he]
      rw [hlast, inTurn_append, inTurn_append, hrest]
    · have hlast : fitting t (edits ++ [e]) = fitting t edits := by simp [fitting, List.filter_append, he]
      have hskipped : ¬e.span.Fits (inTurn (fitting t edits) t) := by
        refine not_fits_inTurn he fun d hd => ?_
        obtain ⟨hmem, hfits⟩ := List.mem_filter.1 hd
        exact ⟨by simpa using hfits, hlater d hmem e (by simp), (hshared d hmem e (by simp)).symm,
          hlets d (List.mem_append_left _ hmem) e (by simp)⟩
      rw [hlast, inTurn_append, inTurn_cons, inTurn_nil, ← hrest, replaceIn_of_not_fits hskipped]

theorem applyEdits_fitting (hdisjoint : edits.Pairwise fun d e => d.span.Disjoint e.span)
    (hlets : ∀ d ∈ edits, ∀ e ∈ edits, d.span.LetsIn t e.span → d.newText = []) :
    applyEdits t (fitting t edits) = applyEdits t edits := by
  have hperm := perm_latestFirst edits
  rw [applyEdits_eq_inTurn, fitting, ← filter_latestFirst, applyEdits_eq_inTurn]
  refine inTurn_fitting (descending_latestFirst edits) ((hperm.pairwise_iff fun h => h.symm).2 hdisjoint) ?_
  exact fun d hd e he => hlets d (hperm.mem_iff.1 hd) e (hperm.mem_iff.1 he)

end Edit

/-! ## An insertion that lets an edit in -/

section
variable {t : Text} {i s : Span} {others : List Span}

/-- A text of `s.stop` characters, inserted into a span that begins in the text, is long enough for it. -/
theorem fits_insertion {a b w : Text} (hstart : (a ++ b).Boundary s.start) (hle : s.start ≤ a.size)
    (hlt : a.size < s.stop) : s.Fits (a ++ List.replicate s.stop 'x' ++ w) := by
  have hsize : ∀ n, Text.size (List.replicate n 'x') = n := Text.size_replicate (by decide)
  have hcut : List.replicate s.stop 'x' = List.replicate (s.stop - a.size) 'x' ++ List.replicate a.size 'x' := by
    rw [List.replicate_append_replicate, Nat.sub_add_cancel (Nat.le_of_lt hlt)]
  refine ⟨by omega, ?_, ⟨a ++ List.replicate (s.stop - a.size) 'x', List.replicate a.size 'x' ++ w, ?_, ?_⟩⟩
  · rw [List.append_assoc, Text.boundary_append_left hle]
    exact (Text.boundary_append_left hle).1 hstart
  · rw [hcut]
    simp only [List.append_assoc]
  · rw [Text.size_append, hsize]
    omega

/-- With an edit let in, the text grows by one byte more than without it. -/
theorem exists_applyEdits_fitting_ne (hlets : i.LetsIn t s) (hdisjoint : ∀ q ∈ others, s.Disjoint q) :
    ∃ edits : List Edit, edits.map (·.span) = i :: s :: others ∧
      applyEdits t (Edit.fitting t edits) ≠ applyEdits t edits := by
  obtain ⟨hi, ⟨hempty, hle, hlt⟩, hstart, hunfit⟩ := hlets
  obtain ⟨a, b, rfl, hspan⟩ := hi.exists_of_empty hempty
  subst hspan
  let inserted : Edit := ⟨⟨a.size, a.size⟩, List.replicate s.stop 'x'⟩
  let written : Edit := ⟨s, List.replicate (s.length + 1) 'z'⟩
  obtain ⟨front, middle, back, horder, hfront, hmiddle, hback⟩ :=
    Edit.exists_latestFirst_insertion (i := inserted) (r := written) ⟨rfl, hle, hlt⟩ hdisjoint
  have hsizes : ∀ e ∈ back, e.KeepsSize := fun e he => (hback e he).1
  have hfilter : ∀ {l : List Edit} {P : Edit → Prop}, (∀ e ∈ l, P e) → ∀ e ∈ Edit.fitting (a ++ b) l, P e :=
    fun h e he => h e (List.mem_of_mem_filter he)
  -- the edits of the fitting spans alone
  obtain ⟨w, hw, hfitting⟩ := Edit.inTurn_insertion (i := inserted) rfl (hfilter hfront) (hfilter hmiddle) b
  have hwithout : (applyEdits (a ++ b) (Edit.fitting (a ++ b) (inserted :: written :: others.map Span.fill))).size =
      a.size + s.stop + b.size := by
    have hkept : Edit.fitting (a ++ b) (front ++ inserted :: middle ++ written :: back) =
        Edit.fitting (a ++ b) front ++ inserted :: Edit.fitting (a ++ b) middle ++ Edit.fitting (a ++ b) back := by
      simp [Edit.fitting, List.filter_append, inserted, written, hi, hunfit]
    rw [applyEdits_eq_inTurn, Edit.fitting, ← Edit.filter_latestFirst, horder, ← Edit.fitting, hkept,
      Edit.inTurn_append, hfitting, Edit.size_inTurn (hfilter hsizes), Text.size_append, Text.size_append, hw,
      Text.size_replicate (by decide)]
  -- all edits
  obtain ⟨w, hw, hall⟩ := Edit.inTurn_insertion (i := inserted) rfl hfront hmiddle b
  have hwith : (applyEdits (a ++ b) (inserted :: written :: others.map Span.fill)).size =
      a.size + s.stop + b.size + 1 := by
    have hfits : written.span.Fits (a ++ inserted.newText ++ w) := fits_insertion hstart hle hlt
    have hsize := Edit.size_replaceIn_of_fits hfits
    have hinserted : inserted.newText.size = s.stop := Text.size_replicate (by decide) _
    have hwritten : written.newText.size = s.length + 1 := Text.size_replicate (by decide) _
    have hlength : written.span.length = s.length := rfl
    rw [Text.size_append, Text.size_append, hw, hinserted, hwritten, hlength] at hsize
    rw [applyEdits_eq_inTurn, horder, Edit.inTurn_append, hall, Edit.inTurn_cons, Edit.size_inTurn hsizes]
    omega
  refine ⟨inserted :: written :: others.map Span.fill, by simp [inserted, written, Function.comp_def], fun heq => ?_⟩
  rw [heq] at hwithout
  omega

end

/-- **Edits that do not fit are skipped**, for spans of which no two share a byte: whatever the new texts, they may be
left out exactly if no insertion that fits lies in a span that begins in the text and does not fit. With such a pair
they may be left out if the insertion inserts nothing. -/
theorem applyEdits_fitting_iff {t : Text} {spans : List Span} (hdisjoint : spans.Pairwise Span.Disjoint) :
    ((∀ edits : List Edit, (edits.map (·.span)).Perm spans →
        applyEdits t (Edit.fitting t edits) = applyEdits t edits) ↔ ∀ i ∈ spans, ∀ s ∈ spans, ¬i.LetsIn t s) ∧
      ∀ edits : List Edit, (edits.map (·.span)).Perm spans →
        (∀ d ∈ edits, ∀ e ∈ edits, d.span.LetsIn t e.span → d.newText = []) →
          applyEdits t (Edit.fitting t edits) = applyEdits t edits := by
  have hharmless : ∀ edits : List Edit, (edits.map (·.span)).Perm spans →
      (∀ d ∈ edits, ∀ e ∈ edits, d.span.LetsIn t e.span → d.newText = []) →
        applyEdits t (Edit.fitting t edits) = applyEdits t edits := by
    intro edits hspans
    exact Edit.applyEdits_fitting (List.pairwise_map.1 ((hspans.pairwise_iff fun h => h.symm).2 hdisjoint))
  refine ⟨⟨fun hskipped i hi s hs hlets => ?_, fun hnone edits hspans => ?_⟩, hharmless⟩
  · obtain ⟨front, back, rfl⟩ := List.append_of_mem hs
    have hne : i ≠ s := by
      rintro rfl
      exact hlets.2.2.2 hlets.1
    have hi : i ∈ front ++ back := by simpa [hne] using hi
    obtain ⟨front', back', hrest⟩ := List.append_of_mem hi
    have hperm : (i :: s :: (front' ++ back')).Perm (front ++ s :: back) := by
      refine (List.Perm.swap s i _).trans (List.Perm.trans ?_ List.perm_middle.symm)
      rw [hrest]
      exact List.perm_middle.symm.cons s
    have hall := (hperm.pairwise_iff fun h => h.symm).2 hdisjoint
    obtain ⟨edits, hspans, hdiffer⟩ :=
      exists_applyEdits_fitting_ne hlets (List.pairwise_cons.1 (List.pairwise_cons.1 hall).2).1
    exact hdiffer (hskipped edits (hspans ▸ hperm))
  · refine hharmless edits hspans fun d hd e he hlets => ?_
    exact absurd hlets (hnone _ (hspans.mem_iff.1 (List.mem_map_of_mem hd)) _
      (hspans.mem_iff.1 (List.mem_map_of_mem he)))

/-- Edits off the characters, behind the end and backwards, and an insertion of nothing into one of them. -/
theorem applyEdits_fitting_iff_accents :
    let t : Text := "é!"
    let outside : List Span := [⟨1, 2⟩, ⟨3, 9⟩, ⟨2, 1⟩, ⟨0, 0⟩]
    let edits : List Edit := [⟨⟨3, 9⟩, "y"⟩, ⟨⟨3, 3⟩, []⟩, ⟨⟨2, 3⟩, "?"⟩, ⟨⟨1, 2⟩, "x"⟩]
    (outside.Pairwise Span.Disjoint ∧ ∀ new : List Edit, (new.map (·.span)).Perm outside →
      applyEdits t (Edit.fitting t new) = applyEdits t new) ∧
      (edits.map (·.span)).Pairwise Span.Disjoint ∧ applyEdits t edits = ("é?" : Text) := by
  intro t outside edits
  have hdisjoint : outside.Pairwise Span.Disjoint := by decide
  have hdisjoint' : (edits.map (·.span)).Pairwise Span.Disjoint := by decide
  have hfitting : applyEdits t (Edit.fitting t edits) = ("é?" : Text) := by decide
  refine ⟨⟨hdisjoint, (applyEdits_fitting_iff hdisjoint).1.2 (by decide)⟩, hdisjoint', ?_⟩
  rw [← hfitting]
  exact ((applyEdits_fitting_iff hdisjoint').2 edits (.refl _) (by decide)).symm

/-- An edit behind the end of the text is applied once an insertion has made the text longer. -/
theorem applyEdits_behind_end :
    let t : Text := "short"
    let edits : List Edit := [⟨⟨5, 5⟩, "!!"⟩, ⟨⟨5, 7⟩, "?"⟩]
    (edits.map (·.span)).Pairwise Span.Disjoint ∧ applyEdits t (Edit.fitting t edits) = ("short!!" : Text) ∧
      applyEdits t edits = ("short?" : Text) := by
  decide

end GraphqlBuild
