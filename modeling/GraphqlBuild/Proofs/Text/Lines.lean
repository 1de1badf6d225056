import GraphqlBuild.Proofs.Text.Cut
import Mathlib.Data.List.DropRight
/-!
# Where a text ends in lines and columns

The line index of a text is asked at the end of one of its beginnings `s`: the line is the number of line
feeds in `s` and the column the size of what follows the last of them (`lineCol_ofText_append`), so the
position depends on `s` alone.
-/

namespace GraphqlBuild

/-- What follows the last line feed of a text; all of it if there is none. -/
def Text.lastLine (t : Text) : Text := t.rtakeWhile (· != '\n')

/-- The position that a text ends at. -/
def Position.behind (t : Text) : Position :=
  ⟨UInt32.ofNat (t.count '\n'), UInt32.ofNat t.lastLine.size⟩

namespace LineIndex

theorem startsAfter_append (offset : Nat) (s t : Text) :
    startsAfter offset (s ++ t) = startsAfter offset s ++ startsAfter (offset + s.size) t := by
  induction s generalizing offset with
  | nil => simp [startsAfter]
  | cons c s ih =>
    simp only [List.cons_append, startsAfter, Text.size_cons, ih]
    split <;> simp [Nat.add_assoc]

theorem lt_of_mem_startsAfter {offset start : Nat} {t : Text} (h : start ∈ startsAfter offset t) :
    offset < start ∧ start ≤ offset + t.size := by
  induction t generalizing offset with
  | nil => simp [startsAfter] at h
  | cons c t ih =>
    have hc := Char.utf8Size_pos c
    have hlater : start ∈ startsAfter (offset + c.utf8Size) t →
        offset < start ∧ start ≤ offset + Text.size (c :: t) := by
      intro hm
      have := ih hm
      simp only [Text.size_cons]
      omega
    simp only [startsAfter] at h
    split at h
    · rcases List.mem_cons.1 h with rfl | hm
      · simp only [Text.size_cons]
        omega
      · exact hlater hm
    · exact hlater h

theorem length_startsAfter (offset : Nat) (t : Text) :
    (startsAfter offset t).length = t.count '\n' := by
  induction t generalizing offset with
  | nil => rfl
  | cons c t ih =>
    simp only [startsAfter, List.count_cons]
    split <;> simp_all

/-- The last line starts where its size is still missing to the end. -/
theorem getLastD_startsAfter (offset : Nat) (t : Text) :
    (startsAfter offset t).getLastD offset + t.lastLine.size = offset + t.size := by
  induction t using List.reverseRecOn with
  | nil => rfl
  | append_singleton t c ih =>
    rw [startsAfter_append, Text.lastLine, List.rtakeWhile_concat]
    by_cases hc : c = '\n'
    · simp [startsAfter, hc, Nat.add_assoc]
    · have hkept : (c != '\n') = true := by simpa using hc
      rw [Text.lastLine] at ih
      simp only [startsAfter, if_neg hc, if_pos hkept, List.append_nil, Text.size_append]
      omega

theorem lineCol_ofText_append (s t : Text) :
    (ofText (s ++ t)).lineCol s.size = (s.count '\n', s.lastLine.size) := by
  have hpassed : (ofText (s ++ t)).starts.takeWhile (· ≤ s.size) = 0 :: startsAfter 0 s := by
    have hlater : (startsAfter s.size t).takeWhile (· ≤ s.size) = [] := by
      rw [List.takeWhile_eq_nil_iff]
      intro h
      have := (lt_of_mem_startsAfter (List.getElem_mem h)).1
      simpa using this
    rw [ofText, startsAfter_append, Nat.zero_add, ← List.cons_append, List.takeWhile_append_of_pos,
      hlater, List.append_nil]
    intro start hm
    rcases List.mem_cons.1 hm with rfl | hm
    · simp
    · simpa using (lt_of_mem_startsAfter hm).2
  have hlast := getLastD_startsAfter 0 s
  simp only [lineCol, hpassed, List.length_cons, Nat.add_sub_cancel, length_startsAfter,
    List.getLastD_cons, Prod.mk.injEq, true_and]
  omega

theorem startsAfter_add (offset n : Nat) (t : Text) :
    startsAfter (offset + n) t = (startsAfter offset t).map (· + n) := by
  induction t generalizing offset with
  | nil => rfl
  | cons c t ih =>
    simp only [startsAfter, Nat.add_right_comm offset n, ih]
    split <;> rfl

theorem takeWhile_append_eq_left {α : Type} {p : α → Bool} (l : List α) {m : List α} (hm : m.takeWhile p = []) :
    (l ++ m).takeWhile p = l.takeWhile p := by
  rw [List.takeWhile_append]
  split
  · rename_i hlength
    rw [hm, List.append_nil]
    exact ((List.takeWhile_prefix p).eq_of_length hlength).symm
  · rfl

/-- The line starts up to an offset of a text that stands between two others. -/
theorem takeWhile_starts_between (s t u : Text) {offset : Nat} (h : offset ≤ t.size ∨ u = []) :
    (ofText (s ++ (t ++ u))).starts.takeWhile (· ≤ offset + s.size) =
      (0 :: startsAfter 0 s) ++ ((startsAfter 0 t).takeWhile (· ≤ offset)).map (· + s.size) := by
  have hlater : (startsAfter (s.size + t.size) u).takeWhile (· ≤ offset + s.size) = [] := by
    rcases h with h | rfl
    · rw [List.takeWhile_eq_nil_iff]
      intro hpos
      have := (lt_of_mem_startsAfter (List.getElem_mem hpos)).1
      simp only [List.get_eq_getElem, decide_eq_true_eq]
      omega
    · rfl
  have hearlier : ∀ start ∈ 0 :: startsAfter 0 s, decide (start ≤ offset + s.size) = true := by
    intro start hm
    rcases List.mem_cons.1 hm with rfl | hm
    · simp
    · have := (lt_of_mem_startsAfter hm).2
      simp only [decide_eq_true_eq]
      omega
  have hmiddle : ((startsAfter 0 t).map (· + s.size)).takeWhile (· ≤ offset + s.size) =
      ((startsAfter 0 t).takeWhile (· ≤ offset)).map (· + s.size) := by
    rw [List.takeWhile_map]
    simp [Function.comp_def]
  rw [ofText, startsAfter_append, startsAfter_append, Nat.zero_add, ← List.cons_append,
    List.takeWhile_append_of_pos hearlier, takeWhile_append_eq_left _ hlater, ← hmiddle, ← startsAfter_add,
    Nat.zero_add]

/-- What is asked of the index of a text that stands between two others. Only on its first line do the
columns depend on what is in front. -/
theorem lineCol_ofText_between (s t u : Text) {offset : Nat} (h : offset ≤ t.size ∨ u = []) :
    (ofText (s ++ (t ++ u))).lineCol (offset + s.size) =
      (((ofText t).lineCol offset).1 + s.count '\n',
        if ((ofText t).lineCol offset).1 = 0 then ((ofText t).lineCol offset).2 + s.lastLine.size
        else ((ofText t).lineCol offset).2) := by
  have halone : (ofText t).starts.takeWhile (· ≤ offset) = 0 :: (startsAfter 0 t).takeWhile (· ≤ offset) := by
    simp [ofText]
  have hlast := getLastD_startsAfter 0 s
  have hcount := length_startsAfter 0 s
  simp only [lineCol, takeWhile_starts_between s t u h, halone]
  generalize (startsAfter 0 t).takeWhile (· ≤ offset) = passed
  cases passed using List.reverseRecOn with
  | nil =>
    simp only [List.map_nil, List.append_nil, List.length_cons, List.getLastD_cons, List.length_nil, List.getLastD_nil,
      hcount, Nat.add_sub_cancel, Prod.mk.injEq, if_true]
    omega
  | append_singleton passed start =>
    have hend : (0 :: startsAfter 0 s ++ (passed ++ [start]).map (· + s.size)).getLastD 0 = start + s.size := by
      rw [List.map_append, ← List.append_assoc]
      exact List.getLastD_concat
    have hend' : (0 :: (passed ++ [start])).getLastD 0 = start := by
      rw [← List.cons_append]
      exact List.getLastD_concat
    simp only [hend, hend', List.length_append, List.length_map, List.length_cons, List.length_nil, hcount,
      Nat.add_sub_cancel, Nat.zero_add, if_neg (Nat.succ_ne_zero _), Prod.mk.injEq]
    omega

theorem position_ofText_append (s t : Text) : (ofText (s ++ t)).position s.size = .behind s := by
  simp only [position, lineCol_ofText_append, Position.behind]

end LineIndex

end GraphqlBuild
