import GraphqlBuild.Text.Edit
import Mathlib.Data.List.Basic
/-!
# The order in which edits are applied

Edits are applied by descending start, those of one start in the order of the list: an edit goes behind all that
start later than it and in front of all others (`Edit.Descending.insertLatest_eq`). So the order of the list does not
matter if edits of one start can be exchanged (`applyEdits_perm_of_exchange`), whether the edits fit the text or not.
-/

namespace GraphqlBuild

namespace Edit
variable {e : Edit} {edits : List Edit}

/-- By descending start. -/
def Descending (edits : List Edit) : Prop := edits.Pairwise fun d e => e.span.start ≤ d.span.start

theorem perm_insertLatest (e : Edit) (edits : List Edit) : (insertLatest e edits).Perm (e :: edits) := by
  induction edits with
  | nil => exact .refl _
  | cons d edits ih =>
    rw [insertLatest]
    split
    · exact .refl _
    · exact (ih.cons d).trans (.swap e d edits)

theorem perm_latestFirst (edits : List Edit) : (latestFirst edits).Perm edits := by
  induction edits with
  | nil => exact .refl _
  | cons e edits ih => exact (perm_insertLatest e _).trans (ih.cons e)

theorem mem_latestFirst : e ∈ latestFirst edits ↔ e ∈ edits := (perm_latestFirst edits).mem_iff

/-! ## Insertion into a descending list -/

theorem insertLatest_append {later : List Edit} (h : ∀ d ∈ later, e.span.start < d.span.start) (edits : List Edit) :
    insertLatest e (later ++ edits) = later ++ insertLatest e edits := by
  induction later with
  | nil => rfl
  | cons d later ih =>
    have hd := h d List.mem_cons_self
    rw [List.cons_append, insertLatest, if_neg (by omega), ih fun d' hd' => h d' (List.mem_cons_of_mem _ hd')]
    rfl

theorem insertLatest_of_le (h : ∀ d ∈ edits, d.span.start ≤ e.span.start) : insertLatest e edits = e :: edits := by
  cases edits with
  | nil => rfl
  | cons d edits => rw [insertLatest, if_pos (h d List.mem_cons_self)]

namespace Descending

/-- A descending list is cut in two at any offset. -/
theorem filter_append_filter (h : Descending edits) (n : Nat) :
    edits.filter (fun d => n < d.span.start) ++ edits.filter (fun d => d.span.start ≤ n) = edits := by
  induction edits with
  | nil => rfl
  | cons d edits ih =>
    obtain ⟨hd, hrest⟩ := List.pairwise_cons.1 h
    by_cases hn : n < d.span.start
    · have hle : ¬d.span.start ≤ n := by omega
      simp [hn, hle, ih hrest]
    · have hrests : ∀ d' ∈ edits, d'.span.start ≤ n := by
        intro d' hd'
        have := hd d' hd'
        omega
      have hnone : edits.filter (fun d => n < d.span.start) = [] := by
        simpa using hrests
      have hall : edits.filter (fun d => d.span.start ≤ n) = edits := by
        simpa using hrests
      have hle : d.span.start ≤ n := by omega
      simp [hle, hnone, hall]

theorem insertLatest_eq (h : Descending edits) (e : Edit) :
    insertLatest e edits = edits.filter (fun d => e.span.start < d.span.start) ++
      e :: edits.filter fun d => d.span.start ≤ e.span.start := by
  calc insertLatest e edits
      = insertLatest e (edits.filter (fun d => e.span.start < d.span.start) ++
          edits.filter fun d => d.span.start ≤ e.span.start) := by rw [h.filter_append_filter]
    _ = _ := by
      rw [insertLatest_append (by simp), insertLatest_of_le (by simp)]

theorem pairwise_insertLatest {R : Edit → Edit → Prop} (h : Descending edits) (hR : edits.Pairwise R)
    (hlater : ∀ d ∈ edits, e.span.start < d.span.start → R d e)
    (hrest : ∀ d ∈ edits, d.span.start ≤ e.span.start → R e d) : (insertLatest e edits).Pairwise R := by
  rw [← h.filter_append_filter e.span.start] at hR
  obtain ⟨hfront, hback, hcross⟩ := List.pairwise_append.1 hR
  rw [h.insertLatest_eq, List.pairwise_append]
  refine ⟨hfront, List.pairwise_cons.2 ⟨fun d hd => ?_, hback⟩, fun d hd d' hd' => ?_⟩
  · obtain ⟨hmem, hle⟩ := List.mem_filter.1 hd
    exact hrest d hmem (by simpa using hle)
  · rcases List.mem_cons.1 hd' with rfl | hd'
    · obtain ⟨hmem, hlt⟩ := List.mem_filter.1 hd
      exact hlater d hmem (by simpa using hlt)
    · exact hcross d hd d' hd'

end Descending

theorem descending_latestFirst (edits : List Edit) : Descending (latestFirst edits) := by
  induction edits with
  | nil => exact .nil
  | cons e edits ih => exact ih.pairwise_insertLatest ih (fun _ _ hlt => Nat.le_of_lt hlt) fun _ _ hle => hle

/-- What holds of two edits in the order of application, told from their order in the list. -/
theorem pairwise_latestFirst {R : Edit → Edit → Prop} (h : edits.Pairwise fun d e =>
    (d.span.start < e.span.start → R e d) ∧ (e.span.start ≤ d.span.start → R d e)) :
    (latestFirst edits).Pairwise R := by
  induction edits with
  | nil => exact .nil
  | cons e edits ih =>
    obtain ⟨he, hrest⟩ := List.pairwise_cons.1 h
    exact (descending_latestFirst edits).pairwise_insertLatest (ih hrest)
      (fun d hd => (he d (mem_latestFirst.1 hd)).1) fun d hd => (he d (mem_latestFirst.1 hd)).2

/-- Edits that are left out do not change the order of the others. -/
theorem filter_latestFirst (p : Edit → Bool) (edits : List Edit) :
    (latestFirst edits).filter p = latestFirst (edits.filter p) := by
  induction edits with
  | nil => rfl
  | cons e edits ih =>
    have hsorted := descending_latestFirst edits
    have hkept := descending_latestFirst (edits.filter p)
    have hcons : latestFirst (e :: edits) = insertLatest e (latestFirst edits) := rfl
    rw [hcons, hsorted.insertLatest_eq, List.filter_append, List.filter_cons, List.filter_comm, List.filter_comm p,
      ih, List.filter_cons]
    by_cases hp : p e = true
    · have hcons : latestFirst (e :: edits.filter p) = insertLatest e (latestFirst (edits.filter p)) := rfl
      rw [if_pos hp, if_pos hp, hcons, hkept.insertLatest_eq]
    · rw [if_neg hp, if_neg hp, hkept.filter_append_filter]

/-! ## One edit after the other -/

/-- The edits applied one after the other, the head of the list first. -/
def inTurn (edits : List Edit) (t : Text) : Text := edits.foldl (fun text e => e.replaceIn text) t

@[simp] theorem inTurn_nil (t : Text) : inTurn [] t = t := rfl

@[simp] theorem inTurn_cons (e : Edit) (edits : List Edit) (t : Text) :
    inTurn (e :: edits) t = inTurn edits (e.replaceIn t) := rfl

@[simp] theorem inTurn_append (l m : List Edit) (t : Text) : inTurn (l ++ m) t = inTurn m (inTurn l t) :=
  List.foldl_append

/-- The two edits can be applied in either order, whatever the text. -/
def Exchange (d e : Edit) : Prop := ∀ t : Text, d.replaceIn (e.replaceIn t) = e.replaceIn (d.replaceIn t)

theorem Exchange.symm {d e : Edit} (h : Exchange d e) : Exchange e d := fun t => (h t).symm

section
variable {l m : List Edit}

theorem inTurn_append_cons (h : ∀ d ∈ l, Exchange d e) (t : Text) :
    inTurn (l ++ e :: m) t = inTurn (l ++ m) (e.replaceIn t) := by
  induction l generalizing t with
  | nil => rfl
  | cons d l ih =>
    have hl : ∀ d' ∈ l, Exchange d' e := fun d' hd' => h d' (List.mem_cons_of_mem _ hd')
    rw [List.cons_append, inTurn_cons, ih hl, ← h d List.mem_cons_self t]
    rfl

/-- Two descending lists of the same edits differ in the order of edits of one start only. -/
theorem Descending.inTurn_eq (hl : Descending l) (hm : Descending m) (hperm : l.Perm m)
    (hties : ∀ d ∈ l, ∀ e ∈ l, d.span.start = e.span.start → Exchange d e) (t : Text) :
    inTurn l t = inTurn m t := by
  induction l generalizing m t with
  | nil => rw [List.nil_perm.1 hperm]
  | cons e l ih =>
    obtain ⟨he, hl⟩ := List.pairwise_cons.1 hl
    obtain ⟨front, back, rfl⟩ := List.append_of_mem (hperm.subset List.mem_cons_self)
    have hrest : l.Perm (front ++ back) := (hperm.trans List.perm_middle).cons_inv
    -- what stands in front of `e` on the other side starts where `e` starts
    have hfront : ∀ d ∈ front, Exchange d e := by
      intro d hd
      have hdl : d ∈ l := hrest.mem_iff.2 (List.mem_append_left _ hd)
      have hle := he d hdl
      have hge := (List.pairwise_append.1 hm).2.2 d hd e List.mem_cons_self
      exact hties d (List.mem_cons_of_mem _ hdl) e List.mem_cons_self (by omega)
    rw [inTurn_cons, inTurn_append_cons hfront]
    refine ih hl (hm.sublist ?_) hrest (fun d hd d' hd' => ?_) (e.replaceIn t)
    · exact (List.sublist_cons_self e back).append_left front
    · exact hties d (List.mem_cons_of_mem _ hd) d' (List.mem_cons_of_mem _ hd')

end

end Edit

theorem applyEdits_eq_inTurn (t : Text) (edits : List Edit) :
    applyEdits t edits = Edit.inTurn (Edit.latestFirst edits) t := rfl

/-- The order of the list does not matter if edits of one start can be exchanged. -/
theorem applyEdits_perm_of_exchange {p edits : List Edit} (hperm : p.Perm edits)
    (hties : edits.Pairwise fun d e => d.span.start = e.span.start → d.Exchange e) (t : Text) :
    applyEdits t p = applyEdits t edits := by
  have hflip : edits.Pairwise fun d e => e.span.start = d.span.start → e.Exchange d :=
    hties.imp fun h heq => (h heq.symm).symm
  have hall := hties.forall_of_forall_of_flip (fun e _ _ t => rfl) hflip
  refine Edit.Descending.inTurn_eq (Edit.descending_latestFirst p) (Edit.descending_latestFirst edits)
    ((Edit.perm_latestFirst p).trans (hperm.trans (Edit.perm_latestFirst edits).symm)) ?_ t
  intro d hd e he
  exact hall (hperm.mem_iff.1 (Edit.mem_latestFirst.1 hd)) (hperm.mem_iff.1 (Edit.mem_latestFirst.1 he))

end GraphqlBuild
