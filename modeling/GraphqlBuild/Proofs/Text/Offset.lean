import GraphqlBuild.Proofs.Text.Lines
import Mathlib.Data.Prod.Lex
/-!
# The line and the column of any offset

Offsets count bytes, so what a line index says of one is read off the bytes in front of it: the number of line
feeds, and the distance from the last of them (`lineCol_ofText_eq`). No offset is too large, and none need fall
between two characters. The line is the last one that starts at the offset or before it (`LineIndex.Locates`),
so the offset is that start and the column, and later offsets have later places (`lineCol_lt_iff`).
-/

namespace GraphqlBuild

/-- The bytes of the UTF-8 form. -/
def Text.bytes (t : Text) : List UInt8 := t.flatMap String.utf8EncodeChar

@[simp] theorem Text.bytes_cons (c : Char) (t : Text) : Text.bytes (c :: t) = String.utf8EncodeChar c ++ t.bytes := rfl

/-- The byte of a line feed. -/
def lineFeed : UInt8 := 10

/-- The offset just after the last line feed of some bytes; 0 if there is none. -/
def afterLastFeed (bytes : List UInt8) : Nat := (bytes.rdropWhile (· != lineFeed)).length

theorem afterLastFeed_le (bytes : List UInt8) : afterLastFeed bytes ≤ bytes.length :=
  (List.rdropWhile_prefix _ bytes).length_le

theorem afterLastFeed_concat (bytes : List UInt8) (b : UInt8) :
    afterLastFeed (bytes ++ [b]) = if b = lineFeed then bytes.length + 1 else afterLastFeed bytes := by
  rw [afterLastFeed, List.rdropWhile_concat]
  by_cases hb : b = lineFeed
  · simp [hb]
  · have hkept : (b != lineFeed) = true := by simpa using hb
    rw [if_pos hkept, if_neg hb, afterLastFeed]

/-! ## Line feeds among bytes -/

/-- No byte of a character but the line feed is a line feed. -/
theorem lineFeed_mem_iff {c : Char} : lineFeed ∈ String.utf8EncodeChar c ↔ c = '\n' := by
  constructor
  · intro h
    have hsmall {n : Nat} (hn : n < 256) (heq : lineFeed = UInt8.ofNat n) : n = 10 := by
      have hnat := congrArg UInt8.toNat heq
      rw [UInt8.toNat_ofNat', Nat.mod_eq_of_lt hn] at hnat
      exact hnat.symm
    simp only [String.utf8EncodeChar] at h
    split_ifs at h
    all_goals simp only [List.mem_cons, List.not_mem_nil, or_false] at h
    · exact Char.ext (UInt32.toNat.inj (hsmall (by omega) h))
    · rcases h with h | h <;> exact absurd (hsmall (by omega) h) (by omega)
    · rcases h with h | h | h <;> exact absurd (hsmall (by omega) h) (by omega)
    · rcases h with h | h | h | h <;> exact absurd (hsmall (by omega) h) (by omega)
  · rintro rfl
    decide

namespace LineIndex

/-- The offsets just after the line feeds among bytes that begin at `offset`. -/
def feedEnds (offset : Nat) : List UInt8 → List Nat
  | [] => []
  | b :: bytes =>
    if b = lineFeed then (offset + 1) :: feedEnds (offset + 1) bytes else feedEnds (offset + 1) bytes

theorem feedEnds_append (offset : Nat) (bytes more : List UInt8) :
    feedEnds offset (bytes ++ more) = feedEnds offset bytes ++ feedEnds (offset + bytes.length) more := by
  induction bytes generalizing offset with
  | nil => rfl
  | cons b bytes ih =>
    simp only [List.cons_append, feedEnds, ih, List.length_cons, Nat.add_assoc, Nat.add_comm 1]
    split <;> rfl

theorem feedEnds_of_notMem {bytes : List UInt8} (h : lineFeed ∉ bytes) (offset : Nat) : feedEnds offset bytes = [] := by
  induction bytes generalizing offset with
  | nil => rfl
  | cons b bytes ih =>
    obtain ⟨hb, hbytes⟩ := not_or.1 (mt List.mem_cons.2 h)
    rw [feedEnds, if_neg (Ne.symm hb), ih hbytes]

theorem startsAfter_eq_feedEnds (offset : Nat) (t : Text) : startsAfter offset t = feedEnds offset t.bytes := by
  induction t generalizing offset with
  | nil => rfl
  | cons c t ih =>
    have hsize := String.length_utf8EncodeChar c
    rw [startsAfter, ih, Text.bytes_cons, feedEnds_append, hsize]
    split
    · rename_i hc
      subst hc
      rfl
    · rename_i hc
      rw [feedEnds_of_notMem (mt lineFeed_mem_iff.1 hc), List.nil_append]

theorem lt_of_mem_feedEnds {offset stop : Nat} {bytes : List UInt8} (h : stop ∈ feedEnds offset bytes) :
    offset < stop := by
  induction bytes generalizing offset with
  | nil => cases h
  | cons b bytes ih =>
    rw [feedEnds] at h
    split at h
    · rcases List.mem_cons.1 h with rfl | h
      · exact Nat.lt_succ_self offset
      · exact Nat.lt_of_succ_lt (ih h)
    · exact Nat.lt_of_succ_lt (ih h)

theorem pairwise_feedEnds (offset : Nat) (bytes : List UInt8) : (feedEnds offset bytes).Pairwise (· < ·) := by
  induction bytes generalizing offset with
  | nil => exact .nil
  | cons b bytes ih =>
    rw [feedEnds]
    split
    · exact .cons (fun stop hstop => lt_of_mem_feedEnds hstop) (ih (offset + 1))
    · exact ih (offset + 1)

/-- The line feeds up to an offset are those among the bytes in front of it. -/
theorem takeWhile_feedEnds (offset n : Nat) (bytes : List UInt8) :
    (feedEnds offset bytes).takeWhile (· ≤ offset + n) = feedEnds offset (bytes.take n) := by
  induction bytes generalizing offset n with
  | nil => rw [List.take_nil]; rfl
  | cons b bytes ih =>
    cases n with
    | zero =>
      rw [List.take_zero, feedEnds, List.takeWhile_eq_nil_iff]
      intro hpos
      have := lt_of_mem_feedEnds (List.getElem_mem hpos)
      simpa using this
    | succ n =>
      have hnext := ih (offset + 1) n
      rw [Nat.add_assoc, Nat.add_comm 1 n] at hnext
      rw [List.take_succ_cons, feedEnds, feedEnds]
      split
      · rw [List.takeWhile_cons_of_pos (by simp), hnext]
      · exact hnext

theorem length_feedEnds (offset : Nat) (bytes : List UInt8) :
    (feedEnds offset bytes).length = bytes.count lineFeed := by
  induction bytes generalizing offset with
  | nil => rfl
  | cons b bytes ih =>
    simp only [feedEnds, List.count_cons, beq_iff_eq]
    split <;> simp [ih]

/-- By induction from the end: a line feed there is the last one, and any other byte changes nothing. -/
theorem getLastD_feedEnds (bytes : List UInt8) : (feedEnds 0 bytes).getLastD 0 = afterLastFeed bytes := by
  induction bytes using List.reverseRecOn with
  | nil => rfl
  | append_singleton bytes b ih =>
    rw [feedEnds_append, afterLastFeed_concat, Nat.zero_add, feedEnds, feedEnds]
    split
    · rw [List.getLastD_concat]
    · rw [List.append_nil, ih]

/-- Whatever the offset is, its line and its column are read off the bytes in front of it. -/
theorem lineCol_ofText_eq (t : Text) (offset : Nat) : (ofText t).lineCol offset =
    ((t.bytes.take offset).count lineFeed, offset - afterLastFeed (t.bytes.take offset)) := by
  have hpassed : (ofText t).starts.takeWhile (· ≤ offset) = 0 :: feedEnds 0 (t.bytes.take offset) := by
    have hfeeds := takeWhile_feedEnds 0 offset t.bytes
    rw [Nat.zero_add] at hfeeds
    rw [ofText, List.takeWhile_cons_of_pos (by simp), startsAfter_eq_feedEnds, hfeeds]
  simp only [lineCol, hpassed, List.length_cons, Nat.add_sub_cancel, length_feedEnds, List.getLastD_cons,
    getLastD_feedEnds]

/-! ## The line that an offset lies on -/

/-- The place's line is the last one that starts at the offset or before it, and its column is the rest. -/
structure Locates (index : LineIndex) (offset : Nat) (place : Nat × Nat) : Prop where
  start : ∃ start, index.starts[place.1]? = some start ∧ start + place.2 = offset
  le_iff : ∀ i start, index.starts[i]? = some start → (start ≤ offset ↔ i ≤ place.1)

theorem starts_ofText_pairwise (t : Text) : (ofText t).starts.Pairwise (· < ·) := by
  rw [ofText, startsAfter_eq_feedEnds]
  exact .cons (fun stop hstop => lt_of_mem_feedEnds hstop) (pairwise_feedEnds 0 t.bytes)

/-- In an ascending list the numbers up to a bound are those that come first. -/
theorem lt_length_takeWhile_iff {l : List Nat} (hl : l.Pairwise (· < ·)) (bound : Nat) {i k : Nat}
    (hk : l[i]? = some k) : i < (l.takeWhile (· ≤ bound)).length ↔ k ≤ bound := by
  induction l generalizing i with
  | nil => cases hk
  | cons a l ih =>
    obtain ⟨ha, hl⟩ := List.pairwise_cons.1 hl
    by_cases hle : a ≤ bound
    · rw [List.takeWhile_cons_of_pos (by simpa using hle), List.length_cons]
      cases i with
      | zero =>
        obtain rfl := Option.some.inj hk
        simp [hle]
      | succ i => rw [Nat.succ_lt_succ_iff, ih hl hk]
    · rw [List.takeWhile_cons_of_neg (by simpa using hle), List.length_nil]
      have hak : a ≤ k := by
        cases i with
        | zero => exact Nat.le_of_eq (Option.some.inj hk)
        | succ i => exact Nat.le_of_lt (ha k (List.mem_of_getElem? hk))
      omega

/-- The search for the line finds one, and nothing is taken from a smaller number. -/
theorem locates_lineCol (t : Text) (offset : Nat) : (ofText t).Locates offset ((ofText t).lineCol offset) := by
  have hfirst : (ofText t).starts[0]? = some 0 := rfl
  have hpassed := (lt_length_takeWhile_iff (starts_ofText_pairwise t) offset hfirst).2 (Nat.zero_le offset)
  have hle {i start : Nat} (hstart : (ofText t).starts[i]? = some start) :=
    lt_length_takeWhile_iff (starts_ofText_pairwise t) offset hstart
  have hprefix := List.takeWhile_prefix (· ≤ offset) (l := (ofText t).starts)
  simp only [lineCol]
  generalize (ofText t).starts.takeWhile (· ≤ offset) = passed at hpassed hle hprefix
  have hlast : passed[passed.length - 1]? = some (passed.getLastD 0) := by
    have hne : passed ≠ [] := List.length_pos_iff.1 hpassed
    rw [← List.getLast?_eq_getElem?, List.getLastD_eq_getLast?, List.getLast?_eq_some_getLast hne]
    rfl
  have hstart : (ofText t).starts[passed.length - 1]? = some (passed.getLastD 0) := by
    obtain ⟨later, hlater⟩ := hprefix
    rw [← hlater, List.getElem?_append_left (by omega), hlast]
  have := (hle hstart).1 (by omega)
  exact ⟨⟨_, hstart, by omega⟩, fun i start hi => by rw [← hle hi]; omega⟩

section
variable {t : Text} {o o' : Nat}

theorem lineCol_lt_of_lt (h : o < o') : toLex ((ofText t).lineCol o) < toLex ((ofText t).lineCol o') := by
  obtain ⟨⟨start, hstart, hsum⟩, -⟩ := locates_lineCol t o
  obtain ⟨⟨start', hstart', hsum'⟩, hle⟩ := locates_lineCol t o'
  rw [Prod.Lex.toLex_lt_toLex]
  rcases Nat.lt_or_eq_of_le ((hle _ start hstart).1 (by omega)) with hline | hline
  · exact .inl hline
  · rw [hline, hstart'] at hstart
    obtain rfl := Option.some.inj hstart
    exact .inr ⟨hline, by omega⟩

/-- Later offsets have later places, and later places belong to later offsets. -/
theorem lineCol_lt_iff : toLex ((ofText t).lineCol o) < toLex ((ofText t).lineCol o') ↔ o < o' := by
  refine ⟨fun h => ?_, lineCol_lt_of_lt⟩
  rcases Nat.lt_trichotomy o o' with hlt | rfl | hgt
  · exact hlt
  · exact absurd h (lt_irrefl _)
  · exact absurd (h.trans (lineCol_lt_of_lt hgt)) (lt_irrefl _)

theorem lineCol_le_iff : toLex ((ofText t).lineCol o) ≤ toLex ((ofText t).lineCol o') ↔ o ≤ o' := by
  rw [← not_lt, lineCol_lt_iff, Nat.not_lt]

theorem lineCol_inj : (ofText t).lineCol o = (ofText t).lineCol o' ↔ o = o' := by
  refine ⟨fun h => Nat.le_antisymm ?_ ?_, congrArg _⟩
  · exact lineCol_le_iff.1 (le_of_eq (congrArg toLex h))
  · exact lineCol_le_iff.1 (le_of_eq (congrArg toLex h.symm))

end

end LineIndex

end GraphqlBuild
