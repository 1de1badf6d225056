import Mathlib.Data.List.Nodup
import GraphqlBuild.Proofs.Literal.NewBodies
/-!
# Which backticks open a literal

The walk keeps no state from one pair of backticks to the next, so whether it opens a literal at a backtick
depends on the backticks right before: in a row of backticks that could each open a pair, it takes the first
and the second as a pair, the third and the fourth, and so on. `opens` says this of the source alone; the
literals that the walk reports are those at the backticks that open one (`exists_opens_of_mem_found`,
`exists_mem_found_of_opens`), and `renew` replaces what follows such a backtick (`getElem?_renew`).

Backticks are numbered from 1. The piece with index `n` is then what follows backtick number `n`.
-/

namespace GraphqlBuild.Literal

/-- The backtick behind the piece `s` could open a pair: a tag ends the piece, and a body and another
backtick follow. -/
def canOpen (tags : List Text) (s : Text) : List Text → Bool
  | body :: _ :: _ => endedByTag tags (run s) && !body.isEmpty
  | _ => false

/-- For each backtick in order, whether it could open a pair; the end of the source counts as one that
could not. -/
def marks (tags : List Text) : List Text → List Bool
  | [] => []
  | s :: rest => canOpen tags s rest :: marks tags rest

/-- The number of marks in a row at the end of the list. -/
def streak (l : List Bool) : Nat := (l.rtakeWhile id).length

/-- Backtick number `n` opens a literal: the run before it is a tag, and the row of backticks that could open
a pair and that ends with it is odd. -/
def opens (tags pieces : List Text) : Nat → Bool
  | 0 => false
  | n + 1 => (pieces[n]?.any fun s => tags.contains (run s)) &&
      streak ((marks tags pieces).take (n + 1)) % 2 == 1

/-- The span is what lies between backtick number `n` and the next one. -/
def Between (bs : List Nat) (s : Span) : Nat → Prop
  | 0 => False
  | n + 1 => ∃ b b', bs[n]? = some b ∧ bs[n + 1]? = some b' ∧ s = ⟨b + 1, b'⟩

/-! ## Rows of marks -/

theorem streak_cons (m : Bool) (l : List Bool) :
    streak (m :: l) = if l.rtakeWhile id = l ∧ m = true then l.length + 1 else streak l := by
  unfold streak
  rw [rtakeWhile_cons]
  split <;> simp_all

@[simp] theorem streak_nil : streak [] = 0 := rfl

@[simp] theorem streak_false_cons (l : List Bool) : streak (false :: l) = streak l := by
  simp [streak_cons]

/-- A pair taken in front of a row does not change which of the row's backticks are taken. -/
theorem streak_true_cons_cons_mod_two (m : Bool) (l : List Bool) :
    streak (true :: m :: l) % 2 = streak l % 2 := by
  rw [streak_cons, streak_cons, rtakeWhile_cons]
  by_cases hall : l.rtakeWhile id = l
  · have hstreak : streak l = l.length := by rw [streak, hall]
    cases m
    · simp [hall, hstreak]
    · simp [hall, hstreak, Nat.add_assoc]
  · have hne : l.rtakeWhile id ≠ m :: l := by
      intro heq
      have := (List.rtakeWhile_suffix id l).length_le
      rw [heq, List.length_cons] at this
      omega
    simp [hall, hne]

theorem opens_one (tags : List Text) (s : Text) (rest : List Text) :
    opens tags (s :: rest) 1 = (tags.contains (run s) && canOpen tags s rest) := by
  simp only [opens, marks, List.getElem?_cons_zero, Option.any_some, List.take_succ_cons, List.take_zero]
  cases canOpen tags s rest
  · simp
  · simp [streak_cons]

theorem opens_succ {tags : List Text} {s : Text} {rest : List Text} (h : canOpen tags s rest = false)
    (n : Nat) : opens tags (s :: rest) (n + 1) = opens tags rest n := by
  cases n with
  | zero => rw [opens_one, h, Bool.and_false, opens]
  | succ n => simp [opens, marks, h]

theorem opens_add_two {tags : List Text} {s body : Text} {rest : List Text}
    (h : canOpen tags s (body :: rest) = true) (n : Nat) :
    opens tags (s :: body :: rest) (n + 2) = opens tags rest n := by
  cases n with
  | zero =>
    have hpair : streak ((marks tags (s :: body :: rest)).take 2) % 2 = 0 := by
      simp [marks, h, streak_true_cons_cons_mod_two]
    simp [opens, hpair]
  | succ n => simp [opens, marks, h, streak_true_cons_cons_mod_two]

theorem opens_nil (tags : List Text) (n : Nat) : opens tags [] n = false := by
  cases n <;> simp [opens]

theorem opens_of_ne_cons_cons_cons {tags pieces : List Text}
    (h : ∀ s body next rest, pieces = s :: body :: next :: rest → False) (n : Nat) :
    opens tags pieces n = false := by
  obtain rfl | ⟨s, rfl⟩ | ⟨s, body, rfl⟩ := eq_of_ne_cons_cons_cons h
  · exact opens_nil tags n
  · rcases n with _ | n
    · rfl
    · rw [opens_succ rfl, opens_nil]
  · rcases n with _ | _ | n
    · rfl
    · rw [opens_succ rfl, opens]
    · rw [opens_succ rfl, opens_succ rfl, opens_nil]

/-! ## Blocks between backticks -/

theorem Between.cons {bs : List Nat} {s : Span} {n : Nat} (h : Between bs s n) (b : Nat) :
    Between (b :: bs) s (n + 1) := by
  cases n with
  | zero => cases h
  | succ n => exact h

theorem le_of_mem_backticksFrom {offset b : Nat} {t : Text} (h : b ∈ backticksFrom offset t) :
    offset ≤ b := by
  fun_induction backticksFrom offset t with
  | case1 => cases h
  | case2 offset t ih =>
    rcases List.mem_cons.1 h with rfl | h
    · exact Nat.le_refl _
    · exact Nat.le_of_add_right_le (ih h)
  | case3 offset c t hc ih => exact Nat.le_of_add_right_le (ih h)

theorem pairwise_backticksFrom (offset : Nat) (t : Text) : (backticksFrom offset t).Pairwise (· < ·) := by
  fun_induction backticksFrom offset t with
  | case1 => exact List.Pairwise.nil
  | case2 offset t ih =>
    refine List.pairwise_cons.2 ⟨fun b hb => ?_, ih⟩
    have := le_of_mem_backticksFrom hb
    rw [size_backtick] at this
    omega
  | case3 offset c t hc ih => exact ih

/-- A span lies behind one backtick only. -/
theorem Between.unique {source : Text} {s : Span} {n n' : Nat} (h : Between (backticks source) s n)
    (h' : Between (backticks source) s n') : n = n' := by
  rcases n with _ | n
  · cases h
  rcases n' with _ | n'
  · cases h'
  obtain ⟨b, _, hb, -, rfl⟩ := h
  obtain ⟨c, _, hc, -, hspan⟩ := h'
  obtain ⟨rfl, -⟩ : b = c ∧ _ := by simpa using hspan
  have hnodup : (backticks source).Nodup := (pairwise_backticksFrom 0 source).imp Nat.ne_of_lt
  obtain ⟨hn, hb⟩ := List.getElem?_eq_some_iff.1 hb
  obtain ⟨hn', hc⟩ := List.getElem?_eq_some_iff.1 hc
  rw [hnodup.getElem_inj_iff.1 (hb.trans hc.symm)]

/-! ## The literals by number -/

section
variable {tags pieces : List Text} (hp : ∀ s ∈ pieces, backtick ∉ s)
include hp

theorem exists_opens_of_mem_found (index : LineIndex) {offset : Nat} {f : Found}
    (h : f ∈ found tags offset pieces) :
    ∃ n, opens tags pieces n = true ∧ pieces[n]? = some f.body ∧
      Between (backticksFrom offset ([backtick].intercalate pieces)) (f.embedded index).interior n := by
  fun_induction found tags offset pieces with
  | case1 offset s body next rest htaken ih =>
    have hcan : canOpen tags s (body :: next :: rest) = true := htaken
    rw [intercalate_cons_backtick, intercalate_cons_backtick, backticksFrom_append (hp s (by simp)),
      backticksFrom_append (hp body (by simp))]
    rcases List.mem_append.1 h with h | h
    · split at h
      · rename_i hm
        obtain rfl := List.mem_singleton.1 h
        have hsize := Text.size_le_of_suffix (run_suffix s)
        refine ⟨1, by rw [opens_one, hm, hcan, Bool.and_self], rfl, _, _, rfl, rfl, ?_⟩
        simp only [Found.embedded, Span.mk.injEq]
        omega
      · cases h
    · obtain ⟨n, hopens, hbody, hbetween⟩ := ih (fun t ht => hp t (by simp_all)) h
      exact ⟨n + 2, by rwa [opens_add_two hcan], hbody, (hbetween.cons _).cons _⟩
  | case2 offset s body next rest htaken ih =>
    have hcannot : canOpen tags s (body :: next :: rest) = false := Bool.eq_false_iff.2 htaken
    rw [intercalate_cons_backtick, backticksFrom_append (hp s (by simp))]
    obtain ⟨n, hopens, hbody, hbetween⟩ := ih (fun t ht => hp t (List.mem_cons_of_mem _ ht)) h
    exact ⟨n + 1, by rwa [opens_succ hcannot], hbody, hbetween.cons _⟩
  | case3 => cases h

theorem exists_mem_found_of_opens (index : LineIndex) (offset : Nat) {n : Nat} (h : opens tags pieces n = true) :
    ∃ f ∈ found tags offset pieces,
      Between (backticksFrom offset ([backtick].intercalate pieces)) (f.embedded index).interior n := by
  fun_induction found tags offset pieces generalizing n with
  | case1 offset s body next rest htaken ih =>
    have hcan : canOpen tags s (body :: next :: rest) = true := htaken
    rw [intercalate_cons_backtick, intercalate_cons_backtick, backticksFrom_append (hp s (by simp)),
      backticksFrom_append (hp body (by simp))]
    rcases n with _ | _ | n
    · cases h
    · rw [opens_one, Bool.and_eq_true] at h
      have hsize := Text.size_le_of_suffix (run_suffix s)
      rw [if_pos h.1]
      refine ⟨_, List.mem_append_left _ (List.mem_singleton_self _), _, _, rfl, rfl, ?_⟩
      simp only [Found.embedded, Span.mk.injEq]
      omega
    · rw [opens_add_two hcan] at h
      obtain ⟨f, hf, hbetween⟩ := ih (fun t ht => hp t (by simp_all)) h
      exact ⟨f, List.mem_append_right _ hf, (hbetween.cons _).cons _⟩
  | case2 offset s body next rest htaken ih =>
    have hcannot : canOpen tags s (body :: next :: rest) = false := Bool.eq_false_iff.2 htaken
    rw [intercalate_cons_backtick, backticksFrom_append (hp s (by simp))]
    rcases n with _ | n
    · cases h
    · rw [opens_succ hcannot] at h
      obtain ⟨f, hf, hbetween⟩ := ih (fun t ht => hp t (List.mem_cons_of_mem _ ht)) h
      exact ⟨f, hf, hbetween.cons _⟩
  | case3 pieces offset hshort =>
    rw [opens_of_ne_cons_cons_cons hshort] at h
    cases h

end

/-- What follows a backtick is replaced if the backtick opens a literal. -/
theorem getElem?_renew (tags : List Text) (r : Text → Text) (pieces : List Text) (n : Nat) :
    (renew tags r pieces)[n]? = pieces[n]?.map fun s => if opens tags pieces n then r s else s := by
  fun_induction renew tags r pieces generalizing n with
  | case1 s body next rest htaken ih =>
    have hcan : canOpen tags s (body :: next :: rest) = true := htaken
    rcases n with _ | _ | n
    · simp [opens]
    · simp [opens_one, hcan]
    · simp [opens_add_two hcan, ih]
  | case2 s body next rest htaken ih =>
    have hcannot : canOpen tags s (body :: next :: rest) = false := Bool.eq_false_iff.2 htaken
    rcases n with _ | n
    · simp [opens]
    · simp [opens_succ hcannot, ih]
  | case3 pieces hshort =>
    simp [opens_of_ne_cons_cons_cons hshort]

end GraphqlBuild.Literal
