import GraphqlBuild.Proofs.Text.Blank
import Mathlib.Data.List.Induction
/-!
# Collapsed texts

A blank between two texts parts their words (`words_append_cons`), so trimming a text does not change its
words and collapsing a collapsed text changes nothing (`collapse_collapse`). Character by character, a
text that ends with no blank is collapsed by writing one space for each run of blanks and none in front
(`squeezeFrom_true`).
-/

namespace GraphqlBuild.Text

/-! ## Words -/

theorem splitOn_ne_nil (p : Char → Bool) (t : Text) : splitOn p t ≠ [] := by
  fun_cases splitOn p t <;> simp

theorem splitOn_append_cons {p : Char → Bool} {b : Char} (hb : p b = true) (s t : Text) :
    splitOn p (s ++ b :: t) = splitOn p s ++ splitOn p t := by
  fun_induction splitOn p s with
  | case1 => simp [splitOn, hb]
  | case2 c s hc ih => simp [splitOn, hc, ih]
  | case3 c s hc hnil ih => exact absurd hnil (splitOn_ne_nil p s)
  | case4 c s hc piece pieces hsplit ih => simp [splitOn, hc, ih, hsplit]

theorem splitOn_of_forall_not {p : Char → Bool} {t : Text} (h : ∀ c ∈ t, p c = false) :
    splitOn p t = [t] := by
  induction t with
  | nil => rfl
  | cons c t ih =>
    have hc : p c = false := h c List.mem_cons_self
    simp [splitOn, hc, ih fun d hd => h d (List.mem_cons_of_mem _ hd)]

theorem notMem_of_mem_splitOn {p : Char → Bool} {c : Char} {t piece : Text} (hpiece : piece ∈ splitOn p t)
    (hc : c ∈ piece) : p c = false := by
  fun_induction splitOn p t generalizing piece with
  | case1 => simp_all
  | case2 d t hd ih =>
    rcases List.mem_cons.1 hpiece with rfl | hpiece
    · cases hc
    · exact ih hpiece hc
  | case3 d t hd hnil ih => exact absurd hnil (splitOn_ne_nil p t)
  | case4 d t hd first rest hsplit ih =>
    rw [hsplit] at ih
    rcases List.mem_cons.1 hpiece with rfl | hpiece
    · rcases List.mem_cons.1 hc with rfl | hc
      · simpa using hd
      · exact ih List.mem_cons_self hc
    · exact ih (List.mem_cons_of_mem _ hpiece) hc

@[simp] theorem words_nil : words [] = [] := rfl

theorem words_append_cons {b : Char} (hb : isBlank b = true) (s t : Text) :
    words (s ++ b :: t) = words s ++ words t := by
  simp only [words, splitOn_append_cons hb, List.filter_append]

theorem words_cons_of_blank {b : Char} (hb : isBlank b = true) (t : Text) : words (b :: t) = words t := by
  simpa using words_append_cons hb [] t

theorem words_of_forall_not_blank {w : Text} (hne : w ≠ []) (h : ∀ c ∈ w, isBlank c = false) :
    words w = [w] := by
  simp [words, splitOn_of_forall_not h, hne]

/-- A first character that is no blank begins the first word, and the text behind it has the other words. -/
theorem words_cons_cons {c d : Char} (hc : isBlank c = false) (hd : isBlank d = false) (t : Text) :
    ∃ w ws, words (d :: t) = w :: ws ∧ words (c :: d :: t) = (c :: w) :: ws := by
  obtain ⟨piece, pieces, hsplit⟩ := List.exists_cons_of_ne_nil (splitOn_ne_nil isBlank t)
  exact ⟨d :: piece, pieces.filter fun piece => !piece.isEmpty, by simp [words, splitOn, hd, hsplit],
    by simp [words, splitOn, hc, hd, hsplit]⟩

theorem words_ne_nil {c : Char} {t : Text} (hc : isBlank c = false) (h : c ∈ t) : words t ≠ [] := by
  obtain ⟨s, t, rfl⟩ := List.append_of_mem h
  induction s with
  | nil =>
    obtain ⟨piece, pieces, hsplit⟩ := List.exists_cons_of_ne_nil (splitOn_ne_nil isBlank t)
    simp [words, splitOn, hc, hsplit]
  | cons d s ih =>
    cases hd : isBlank d with
    | true =>
      rw [List.cons_append, words_cons_of_blank hd]
      exact ih (by simp)
    | false =>
      obtain ⟨piece, pieces, hsplit⟩ := List.exists_cons_of_ne_nil (splitOn_ne_nil isBlank (s ++ c :: t))
      simp [words, splitOn, hd, hsplit]

theorem words_trimStart (t : Text) : words t.trimStart = words t := by
  induction t with
  | nil => rfl
  | cons c t ih =>
    rw [trimStart, List.dropWhile_cons]
    split
    · rename_i hc
      rw [words_cons_of_blank hc]
      exact ih
    · rfl

theorem words_trimEnd (t : Text) : words t.trimEnd = words t := by
  induction t using List.reverseRecOn with
  | nil => rfl
  | append_singleton t c ih =>
    rw [trimEnd, List.reverse_concat, List.dropWhile_cons]
    split
    · rename_i hc
      rw [words_append_cons hc, words_nil, List.append_nil]
      exact ih
    · simp

theorem trimEnd_prefix (t : Text) : t.trimEnd <+: t := by
  rw [← List.reverse_suffix, trimEnd, List.reverse_reverse]
  exact List.dropWhile_suffix _

theorem isBlank_of_mem_getLast?_trimEnd {t : Text} {c : Char} (h : c ∈ t.trimEnd.getLast?) : isBlank c = false := by
  rw [trimEnd, List.getLast?_reverse] at h
  have := List.head?_dropWhile_not isBlank t.reverse
  simp_all

theorem isBlank_of_mem_head?_trimStart {t : Text} {c : Char} (h : c ∈ t.trimStart.head?) : isBlank c = false := by
  have := List.head?_dropWhile_not isBlank t
  rw [trimStart] at h
  simp_all

/-- The blanks that a text begins with. -/
def leading (t : Text) : Text := t.takeWhile isBlank

/-- The blanks that a text ends with, those aside that it also begins with. -/
def trailing (t : Text) : Text := (t.trimStart.reverse.takeWhile isBlank).reverse

theorem leading_trim_trailing (t : Text) : t.leading ++ (t.trim ++ t.trailing) = t := by
  rw [trim, trimEnd, trailing, ← List.reverse_append, List.takeWhile_append_dropWhile, List.reverse_reverse, leading,
    trimStart, List.takeWhile_append_dropWhile]

theorem isBlank_of_mem_leading {t : Text} {c : Char} (h : c ∈ t.leading) : isBlank c = true :=
  List.all_eq_true.1 List.all_takeWhile c h

theorem isBlank_of_mem_trailing {t : Text} {c : Char} (h : c ∈ t.trailing) : isBlank c = true :=
  List.all_eq_true.1 List.all_takeWhile c (List.mem_reverse.1 h)

theorem isBlank_of_mem_getLast?_trim {t : Text} {c : Char} (h : c ∈ t.trim.getLast?) : isBlank c = false :=
  isBlank_of_mem_getLast?_trimEnd h

theorem isBlank_of_mem_head?_trim {t : Text} {c : Char} (h : c ∈ t.trim.head?) : isBlank c = false := by
  obtain ⟨rest, hrest⟩ := trimEnd_prefix t.trimStart
  refine isBlank_of_mem_head?_trimStart (t := t) ?_
  rw [← hrest]
  rw [List.head?_append, ← trim, Option.mem_def.1 h]
  rfl

theorem trim_eq_self {t : Text} (hhead : ∀ c ∈ t.head?, isBlank c = false)
    (hlast : ∀ c ∈ t.getLast?, isBlank c = false) : t.trim = t := by
  have hstart : t.trimStart = t := by
    cases t with
    | nil => rfl
    | cons c t => rw [trimStart, List.dropWhile_cons_of_neg (by simp [hhead c rfl])]
  rw [trim, hstart, trimEnd]
  cases t using List.reverseRecOn with
  | nil => rfl
  | append_singleton t c => simp [hlast c (by simp)]

theorem trim_trim (t : Text) : t.trim.trim = t.trim :=
  trim_eq_self (fun _ => isBlank_of_mem_head?_trim) fun _ => isBlank_of_mem_getLast?_trim

theorem collapse_trim (t : Text) : t.trim.collapse = t.collapse := by
  rw [collapse, trim, words_trimEnd, words_trimStart, collapse]

theorem words_join {ws : List Text} (h : ∀ w ∈ ws, w ≠ [] ∧ ∀ c ∈ w, isBlank c = false) :
    words (join [' '] ws) = ws := by
  induction ws with
  | nil => rfl
  | cons w ws ih =>
    obtain ⟨hne, hw⟩ := h w List.mem_cons_self
    cases ws with
    | nil => simpa [join] using words_of_forall_not_blank hne hw
    | cons w' ws =>
      have hjoin : join [' '] (w :: w' :: ws) = w ++ ' ' :: join [' '] (w' :: ws) := by
        simp [join, List.intercalate_cons_cons]
      rw [hjoin, words_append_cons (by decide), words_of_forall_not_blank hne hw,
        ih fun v hv => h v (List.mem_cons_of_mem _ hv)]
      rfl

theorem words_collapse (t : Text) : words t.collapse = words t := by
  refine words_join fun w hw => ?_
  obtain ⟨hmem, hne⟩ := List.mem_filter.1 hw
  exact ⟨by simpa using hne, fun c hc => notMem_of_mem_splitOn hmem hc⟩

theorem collapse_collapse (t : Text) : t.collapse.collapse = t.collapse := by
  rw [collapse, words_collapse, collapse]

/-! ## Character by character -/

/-- The text with one space for each run of blanks. If `pending` holds, a blank came just before. -/
def squeezeFrom (pending : Bool) : Text → Text
  | [] => []
  | c :: t =>
    if isBlank c then (if pending then squeezeFrom true t else ' ' :: squeezeFrom true t)
    else c :: squeezeFrom false t

/-- The text with one space for each run of blanks. -/
def squeeze (t : Text) : Text := squeezeFrom false t

/-- What is written for a text does not depend on what follows. -/
theorem squeezeFrom_append (pending : Bool) (s t : Text) :
    squeezeFrom pending (s ++ t) = squeezeFrom pending s ++ squeezeFrom ((s.getLast?.map isBlank).getD pending) t := by
  induction s generalizing pending with
  | nil => rfl
  | cons c s ih =>
    have hlast : ((c :: s).getLast?.map isBlank).getD pending = (s.getLast?.map isBlank).getD (isBlank c) := by
      cases s <;> simp [List.getLast?_cons]
    rw [List.cons_append, squeezeFrom, squeezeFrom, hlast]
    cases hc : isBlank c <;> cases pending <;> simp [ih]

/-- A text that ends with no blank is collapsed by squeezing it, without a space in front. -/
theorem squeezeFrom_true {t : Text} (h : ∀ c ∈ t.getLast?, isBlank c = false) :
    squeezeFrom true t = t.collapse := by
  induction t with
  | nil => rfl
  | cons c t ih =>
    cases t with
    | nil =>
      have hc : isBlank c = false := h c rfl
      simp [squeezeFrom, hc, collapse, join, words_of_forall_not_blank]
    | cons d t =>
      have hrest : squeezeFrom true (d :: t) = collapse (d :: t) := ih (by simpa using h)
      cases hc : isBlank c with
      | true => rw [squeezeFrom, if_pos hc, if_pos rfl, hrest, collapse, collapse, words_cons_of_blank hc]
      | false =>
        rw [squeezeFrom, if_neg (by simp [hc])]
        cases hd : isBlank d with
        | true =>
          -- the blanks behind `c` end a word, and there is another one
          have hlast := List.getLast?_eq_some_getLast (List.cons_ne_nil d t)
          have hsolid : isBlank ((d :: t).getLast (by simp)) = false := h _ (by simpa using hlast)
          have hwords : words (c :: d :: t) = [c] :: words (d :: t) := by
            rw [← List.singleton_append, words_append_cons hd, words_cons_of_blank hd,
              words_of_forall_not_blank (by simp) (by simpa using hc), List.singleton_append]
          obtain ⟨w, ws, hws⟩ := List.exists_cons_of_ne_nil (words_ne_nil hsolid (List.getLast_mem _))
          have hspace : squeezeFrom false (d :: t) = ' ' :: squeezeFrom true (d :: t) := by
            simp [squeezeFrom, hd]
          rw [hspace, hrest, collapse, collapse, hwords, hws]
          simp [join, List.intercalate_cons_cons]
        | false =>
          obtain ⟨w, ws, hws, hcons⟩ := words_cons_cons hc hd t
          have hsame : squeezeFrom false (d :: t) = squeezeFrom true (d :: t) := by simp [squeezeFrom, hd]
          rw [hsame, hrest, collapse, collapse, hcons, hws]
          cases ws <;> simp [join, List.intercalate_cons_cons]

theorem squeezeFrom_trimEnd (t : Text) : squeezeFrom true t.trimEnd = t.collapse := by
  rw [squeezeFrom_true fun c => isBlank_of_mem_getLast?_trimEnd, collapse, words_trimEnd, collapse]

end GraphqlBuild.Text
