import GraphqlBuild.Document.Pending
import Mathlib.Data.List.Basic
/-!
# The text of a template

The pass over the strings of a template takes a value in front of each but the first and adds the values that are left.
Whatever it starts from, what it adds are the two lists in alternation, and then the rest of the longer one
(`TemplateText.finish_foldl_push`, `interpolate_eq_flatten_alternate`). `Alternation` says at which place each string
and each value stands, and there is only one such list of pieces (`alternation_iff`). The main statement, on texts and
documents, is `interpolate_alternation`.
-/

namespace GraphqlBuild

/-! ## Alternating lists -/

section
variable {α β : Type}

/-- The first element of each list in turn, then the second of each, and so on; the rest of the longer list
follows. -/
def alternate : List α → List α → List α
  | [], ys => ys
  | xs, [] => xs
  | x :: xs, y :: ys => x :: y :: alternate xs ys

@[simp] theorem alternate_nil_right (xs : List α) : alternate xs [] = xs := by cases xs <;> rfl

/-- Behind the first element the lists change their parts. -/
theorem alternate_cons_left (x : α) (xs ys : List α) : alternate (x :: xs) ys = x :: alternate ys xs := by
  induction xs, ys using alternate.induct generalizing x with
  | case1 ys => cases ys <;> simp [alternate]
  | case2 xs => simp [alternate]
  | case3 x' xs y ys ih => rw [alternate, ih, alternate]

theorem map_alternate (f : α → β) (xs ys : List α) : (alternate xs ys).map f = alternate (xs.map f) (ys.map f) := by
  fun_induction alternate xs ys with
  | case1 => rfl
  | case2 => simp
  | case3 x xs y ys ih => simp [alternate, ih]

/-- What keeps nothing of the second list keeps of both what it keeps of the first. -/
theorem filterMap_alternate_left {f : α → Option β} {xs ys : List α} (h : ∀ y ∈ ys, f y = none) :
    (alternate xs ys).filterMap f = xs.filterMap f := by
  fun_induction alternate xs ys with
  | case1 ys => exact List.filterMap_eq_nil_iff.2 h
  | case2 => rfl
  | case3 x xs y ys ih =>
    obtain ⟨hy, hys⟩ := List.forall_mem_cons.1 h
    rw [List.filterMap_cons, List.filterMap_cons_none hy, List.filterMap_cons, ih hys]

theorem filterMap_alternate_right {f : α → Option β} {xs ys : List α} (h : ∀ x ∈ xs, f x = none) :
    (alternate xs ys).filterMap f = ys.filterMap f := by
  cases xs with
  | nil => rfl
  | cons x xs =>
    obtain ⟨hx, hxs⟩ := List.forall_mem_cons.1 h
    rw [alternate_cons_left, List.filterMap_cons_none hx, filterMap_alternate_left hxs]

/-- In front of an element of the first list stand those before it and as many of the second, if there are so many. -/
theorem getElem?_alternate_left (xs ys : List α) {i : Nat} (h : i < xs.length) :
    (alternate xs ys)[i + min i ys.length]? = xs[i]? := by
  fun_induction alternate xs ys generalizing i with
  | case1 => cases h
  | case2 => simp
  | case3 x xs y ys ih =>
    cases i with
    | zero => simp
    | succ i =>
      have hplace : i + 1 + min (i + 1) (y :: ys).length = i + min i ys.length + 2 := by
        rw [List.length_cons]; omega
      rw [hplace, List.getElem?_cons_succ, List.getElem?_cons_succ, List.getElem?_cons_succ]
      exact ih (Nat.lt_of_succ_lt_succ h)

/-- In front of an element of the second list stand those before it and one more of the first, if there are so many. -/
theorem getElem?_alternate_right (xs ys : List α) {i : Nat} (h : i < ys.length) :
    (alternate xs ys)[i + min (i + 1) xs.length]? = ys[i]? := by
  cases xs with
  | nil => simp [alternate]
  | cons x xs =>
    have hplace : i + min (i + 1) (x :: xs).length = i + min i xs.length + 1 := by
      rw [List.length_cons]; omega
    rw [hplace, alternate_cons_left, List.getElem?_cons_succ, getElem?_alternate_left ys xs h]

end

/-! ## The pass -/

/-- What strings that are not the first add to a text: they alternate with the values still to come, a value first. -/
theorem TemplateText.finish_foldl_push (strings : List Text) {n : Nat} (hn : 0 < n) (a : TemplateText) :
    ((strings.zipIdx n).foldl push a).finish = a.text ++ (alternate a.values strings).flatten := by
  induction strings generalizing n a with
  | nil => simp [finish]
  | cons s strings ih =>
    obtain ⟨text, values⟩ := a
    rw [List.zipIdx_cons, List.foldl_cons, ih n.succ_pos, push, if_pos hn]
    cases values with
    | nil => simp [pushValue, alternate]
    | cons v values => simp [pushValue, alternate]

theorem interpolate_eq_flatten_alternate (strings values : List Text) :
    interpolate strings values = (alternate strings values).flatten := by
  cases strings with
  | nil => rfl
  | cons s strings =>
    rw [interpolate, List.zipIdx_cons, List.foldl_cons, TemplateText.finish_foldl_push strings Nat.one_pos,
      alternate_cons_left, List.flatten_cons]
    rfl

namespace Template

/-! ## The pieces of a template -/

/-- The pieces are the strings (on the left) and the values (on the right) of a template in alternation. -/
structure Alternation (strings values : List Text) (pieces : List (Text ⊕ Text)) : Prop where
  /-- Every string is there once, in the order of the strings. -/
  strings_eq : pieces.filterMap Sum.getLeft? = strings
  /-- Every value is there once, in the order of the values. -/
  values_eq : pieces.filterMap Sum.getRight? = values
  /-- In front of a string stand the strings before it and as many values, as far as there are values. -/
  string_at : ∀ i (h : i < strings.length), pieces[i + min i values.length]? = some (.inl strings[i])
  /-- In front of a value stand the values before it and one string more, as far as there are strings. -/
  value_at : ∀ i (h : i < values.length), pieces[i + min (i + 1) strings.length]? = some (.inr values[i])

/-- As long as there are both, a value stands directly in front of the string with the next number. -/
theorem Alternation.value_string {strings values : List Text} {pieces : List (Text ⊕ Text)}
    (h : Alternation strings values pieces) {i : Nat} (hv : i < values.length) (hs : i + 1 < strings.length) :
    pieces[2 * i + 1]? = some (.inr values[i]) ∧ pieces[2 * i + 2]? = some (.inl strings[i + 1]) := by
  have hvalue := h.value_at i hv
  have hstring := h.string_at (i + 1) hs
  rw [show i + min (i + 1) strings.length = 2 * i + 1 by omega] at hvalue
  rw [show i + 1 + min (i + 1) values.length = 2 * i + 2 by omega] at hstring
  exact ⟨hvalue, hstring⟩

/-- The strings and values of a template in alternation, each with the list that it is from. -/
def pieces (strings values : List Text) : List (Text ⊕ Text) := alternate (strings.map .inl) (values.map .inr)

theorem alternation_pieces (strings values : List Text) : Alternation strings values (pieces strings values) where
  strings_eq := by
    rw [pieces, filterMap_alternate_left (by simp), List.filterMap_map]
    exact List.filterMap_some
  values_eq := by
    rw [pieces, filterMap_alternate_right (by simp), List.filterMap_map]
    exact List.filterMap_some
  string_at i h := by
    have hplace := getElem?_alternate_left (strings.map Sum.inl) (values.map Sum.inr) (i := i) (by simpa using h)
    simpa [pieces, h] using hplace
  value_at i h := by
    have hplace := getElem?_alternate_right (strings.map Sum.inl) (values.map Sum.inr) (i := i) (by simpa using h)
    simpa [pieces, h] using hplace

theorem length_eq_add (ps : List (Text ⊕ Text)) :
    ps.length = (ps.filterMap Sum.getLeft?).length + (ps.filterMap Sum.getRight?).length := by
  induction ps with
  | nil => rfl
  | cons p ps ih => cases p <;> simp [List.filterMap_cons, ih] <;> omega

/-- Every place is that of a string or of a value. -/
theorem exists_place {m n k : Nat} (h : k < m + n) :
    (∃ i < m, k = i + min i n) ∨ ∃ i < n, k = i + min (i + 1) m := by
  by_cases hstrings : 2 * n ≤ k
  · exact .inl ⟨k - n, by omega, by omega⟩
  · by_cases hvalues : 2 * m ≤ k
    · exact .inr ⟨k - m, by omega, by omega⟩
    · -- both lists reach as far as here, so they take turns
      rcases Nat.mod_two_eq_zero_or_one k with hk | hk
      · exact .inl ⟨k / 2, by omega, by omega⟩
      · exact .inr ⟨k / 2, by omega, by omega⟩

/-- Strings and values alternate in one way only. -/
theorem alternation_iff {strings values : List Text} {ps : List (Text ⊕ Text)} :
    Alternation strings values ps ↔ ps = pieces strings values := by
  refine ⟨fun h => ?_, fun h => h ▸ alternation_pieces strings values⟩
  have hpieces := alternation_pieces strings values
  have hlength : ps.length = strings.length + values.length := by
    rw [length_eq_add, h.strings_eq, h.values_eq]
  have hlength' : (pieces strings values).length = strings.length + values.length := by
    rw [length_eq_add, hpieces.strings_eq, hpieces.values_eq]
  refine List.ext_getElem? fun k => ?_
  by_cases hk : k < strings.length + values.length
  · rcases exists_place hk with ⟨i, hi, rfl⟩ | ⟨i, hi, rfl⟩
    · rw [h.string_at i hi, hpieces.string_at i hi]
    · rw [h.value_at i hi, hpieces.value_at i hi]
  · rw [List.getElem?_eq_none (by omega), List.getElem?_eq_none (by omega)]

theorem interpolate_eq_flatMap_pieces (strings values : List Text) :
    interpolate strings values = (pieces strings values).flatMap (Sum.elim id id) := by
  rw [pieces, List.flatMap_def, map_alternate, List.map_map, List.map_map, Sum.elim_comp_inl, Sum.elim_comp_inr,
    List.map_id, List.map_id, interpolate_eq_flatten_alternate]

/-! ## Texts and documents of templates -/

theorem flatten_alternate_of_length_eq {values rest : List Text} (h : rest.length = values.length) :
    (alternate values rest).flatten = (List.zipWith (· ++ ·) values rest).flatten := by
  fun_induction alternate values rest with
  | case1 rest => simp [List.length_eq_zero_iff.1 h]
  | case2 values hvalues => exact absurd (List.length_eq_zero_iff.1 h.symm) hvalues
  | case3 v values s rest ih =>
    rw [List.flatten_cons, List.flatten_cons, ih (Nat.succ.inj h), List.zipWith_cons_cons, List.flatten_cons,
      List.append_assoc]

/-- A template with one string more than values is its first string and then each value with the string behind it. -/
theorem interpolate_cons_of_length_eq {values rest : List Text} (h : rest.length = values.length) (first : Text) :
    interpolate (first :: rest) values = first ++ (List.zipWith (· ++ ·) values rest).flatten := by
  rw [interpolate_eq_flatten_alternate, alternate_cons_left, List.flatten_cons, flatten_alternate_of_length_eq h]

/-- **The text of a template** is its strings and values in alternation, whichever list is the longer: each of them once
and in order, a value directly in front of the string with the next number, the rest of the longer list at
the end. With one string more than values this is what the documents of the template are made from. -/
theorem interpolate_alternation (strings values : List Text) :
    interpolate strings values = (alternate strings values).flatten ∧
    (∃ pieces, (∀ others, Alternation strings values others ↔ others = pieces) ∧
      interpolate strings values = pieces.flatMap (Sum.elim id id) ∧
      ∀ i (hv : i < values.length) (hs : i + 1 < strings.length),
        pieces[2 * i + 1]? = some (.inr values[i]) ∧ pieces[2 * i + 2]? = some (.inl strings[i + 1])) ∧
    (strings = [] → interpolate strings values = values.flatten) ∧
    ∀ first rest, strings = first :: rest → rest.length = values.length →
      ∃ text, text = first ++ (List.zipWith (· ++ ·) values rest).flatten ∧
        interpolate strings values = text ∧ PendingDocument.ofTemplate strings values = .ofText text ∧
        ∀ n : Normalization, n.template strings values = .ofText (n.apply text) := by
  refine ⟨interpolate_eq_flatten_alternate strings values, ⟨pieces strings values, fun others => alternation_iff,
    interpolate_eq_flatMap_pieces strings values,
    fun i hv hs => (alternation_pieces strings values).value_string hv hs⟩, ?_, ?_⟩
  · rintro rfl
    exact interpolate_eq_flatten_alternate [] values
  · rintro first rest rfl hlength
    have htext := interpolate_cons_of_length_eq hlength first
    refine ⟨_, rfl, htext, ?_, fun n => ?_⟩
    · rw [PendingDocument.ofTemplate, htext]
    · rw [Normalization.template, Normalization.document, htext]

/-- A template whose first string is empty. -/
theorem interpolate_alternation_arguments :
    ["(n: ".toList, "): Int".toList].length = ["field".toList, "10".toList].length ∧
      interpolate ["", "(n: ", "): Int"] ["field", "10"] = "field(n: 10): Int".toList ∧
      PendingDocument.ofTemplate ["", "(n: ", "): Int"] ["field", "10"] = .ofText "field(n: 10): Int" := by
  obtain ⟨-, -, -, hfull⟩ := interpolate_alternation ["", "(n: ", "): Int"] ["field", "10"]
  obtain ⟨text, htext, hinterpolate, hdocument, -⟩ := hfull "" ["(n: ", "): Int"] rfl rfl
  have hread : text = "field(n: 10): Int".toList := by rw [htext]; decide
  exact ⟨rfl, by rw [hinterpolate, hread], by rw [hdocument, hread]⟩

end Template

end GraphqlBuild
