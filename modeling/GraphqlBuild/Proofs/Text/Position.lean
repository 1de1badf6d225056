import GraphqlBuild.Proofs.Text.Offset
/-!
# Positions in 32-bit words

A position keeps the line and the column of an offset in words of 32 bits, and of a larger number only what is left
modulo `2^32`. Offsets whose line and column fit have positions in their own order; the first offset that does not
fit has the position of an earlier one (`exists_position_eq`). So up to a bound the order is that of the offsets just
if all of them fit.
-/

namespace GraphqlBuild

theorem Position.le_iff {a b : Position} :
    a.le b = true ↔ a.line < b.line ∨ a.line = b.line ∧ a.column ≤ b.column := by
  simp [Position.le]

namespace LineIndex

/-- Line and column of the offset fit words of 32 bits. -/
structure Fits (index : LineIndex) (offset : Nat) : Prop where
  line : (index.lineCol offset).1 < UInt32.size
  column : (index.lineCol offset).2 < UInt32.size

/-! ## From one offset to the next -/

@[simp] theorem lineCol_zero (t : Text) : (ofText t).lineCol 0 = (0, 0) := by
  rw [lineCol_ofText_eq]
  rfl

/-- A line feed leads to the next line, any other byte to the next column; so does what lies past the end. -/
theorem lineCol_succ (t : Text) (offset : Nat) : (ofText t).lineCol (offset + 1) =
    if t.bytes[offset]? = some lineFeed then (((ofText t).lineCol offset).1 + 1, 0)
    else (((ofText t).lineCol offset).1, ((ofText t).lineCol offset).2 + 1) := by
  have hle : afterLastFeed (t.bytes.take offset) ≤ offset :=
    Nat.le_trans (afterLastFeed_le _) (List.length_take_le offset t.bytes)
  rw [lineCol_ofText_eq, lineCol_ofText_eq, List.take_add_one]
  cases hbyte : t.bytes[offset]? with
  | none =>
    rw [if_neg (by simp), Option.toList_none, List.append_nil]
    exact Prod.ext rfl (Nat.succ_sub hle)
  | some b =>
    have hlength : (t.bytes.take offset).length = offset :=
      List.length_take_of_le (Nat.le_of_lt (List.getElem?_eq_some_iff.1 hbyte).1)
    rw [Option.toList_some, List.count_append, afterLastFeed_concat, hlength]
    by_cases hb : b = lineFeed
    · simp [hb]
    · simp [hb, Nat.succ_sub hle]

theorem line_add_column_le (t : Text) (offset : Nat) :
    ((ofText t).lineCol offset).1 + ((ofText t).lineCol offset).2 ≤ offset := by
  induction offset with
  | zero => simp
  | succ offset ih =>
    rw [lineCol_succ]
    split
    · show ((ofText t).lineCol offset).1 + 1 + 0 ≤ offset + 1
      omega
    · show ((ofText t).lineCol offset).1 + (((ofText t).lineCol offset).2 + 1) ≤ offset + 1
      omega

/-- As many bytes back as the column says, the line begins. -/
theorem lineCol_sub_column (t : Text) (offset : Nat) :
    (ofText t).lineCol (offset - ((ofText t).lineCol offset).2) = (((ofText t).lineCol offset).1, 0) := by
  induction offset with
  | zero => simp
  | succ offset ih =>
    have hstep := lineCol_succ t offset
    split at hstep
    · simp [hstep]
    · simp [hstep, ih]

/-! ## Offsets that fit -/

section
variable {t : Text} {s e : Nat}

theorem fits_of_lt (h : s < UInt32.size) : (ofText t).Fits s := by
  have := line_add_column_le t s
  exact ⟨by omega, by omega⟩

theorem size_le_of_not_fits (h : ¬(ofText t).Fits s) : UInt32.size ≤ s := Nat.le_of_not_lt (mt fits_of_lt h)

theorem le_position_iff (hs : (ofText t).Fits s) (he : (ofText t).Fits e) :
    ((ofText t).position s).le ((ofText t).position e) = true ↔ s ≤ e := by
  have hline : UInt32.ofNat ((ofText t).lineCol s).1 = UInt32.ofNat ((ofText t).lineCol e).1 ↔
      ((ofText t).lineCol s).1 = ((ofText t).lineCol e).1 := by
    rw [← UInt32.toNat_inj, UInt32.toNat_ofNat_of_lt' hs.line, UInt32.toNat_ofNat_of_lt' he.line]
  rw [Position.le_iff, ← lineCol_le_iff (t := t), Prod.Lex.toLex_le_toLex, position, position,
    UInt32.ofNat_lt_iff_lt hs.line he.line, UInt32.ofNat_le_iff_le hs.column he.column, hline]

theorem position_inj (hs : (ofText t).Fits s) (he : (ofText t).Fits e) :
    (ofText t).position s = (ofText t).position e ↔ s = e := by
  refine ⟨fun h => Nat.le_antisymm ?_ ?_, congrArg _⟩
  · rw [← le_position_iff hs he, ← h, le_position_iff hs hs]
  · rw [← le_position_iff he hs, ← h, le_position_iff hs hs]

end

/-! ## The first offset that does not fit -/

section
variable {t : Text} {o : Nat}

/-- Either the offset is the start of line `2^32`, which has the position of offset 0, or its column is `2^32`, and it
has the position of its line's start. -/
theorem exists_position_eq (ho : ¬(ofText t).Fits (o + 1)) (hfits : (ofText t).Fits o) :
    ∃ o' < o, (ofText t).position o' = (ofText t).position (o + 1) := by
  have hlarge := size_le_of_not_fits ho
  have hone : 1 < UInt32.size := by decide
  have hstep := lineCol_succ t o
  split at hstep
  · have hline : ((ofText t).lineCol o).1 + 1 = UInt32.size := by
      refine Nat.le_antisymm hfits.line (Nat.le_of_not_lt fun hlt => ho ⟨?_, ?_⟩)
      · rw [hstep]; exact hlt
      · rw [hstep]; exact Nat.lt_trans Nat.one_pos hone
    refine ⟨0, by omega, ?_⟩
    rw [position, position, lineCol_zero, hstep, hline]
    rfl
  · have hcolumn : ((ofText t).lineCol o).2 + 1 = UInt32.size := by
      refine Nat.le_antisymm hfits.column (Nat.le_of_not_lt fun hlt => ho ⟨?_, ?_⟩)
      · rw [hstep]; exact hfits.line
      · rw [hstep]; exact hlt
    have hstart := lineCol_sub_column t (o + 1)
    rw [hstep, hcolumn] at hstart
    refine ⟨o + 1 - UInt32.size, by omega, ?_⟩
    rw [position, position, hstart, hstep, hcolumn]
    rfl

theorem exists_position_eq_of_not_fits {bound : Nat} (h : ¬∀ o ≤ bound, (ofText t).Fits o) :
    ∃ o < bound, (ofText t).Fits o ∧ ∃ o' < o, (ofText t).Fits o' ∧
      (ofText t).position o' = (ofText t).position (o + 1) := by
  induction bound with
  | zero =>
    refine absurd (fun o ho => fits_of_lt ?_) h
    rw [Nat.le_zero.1 ho]
    decide
  | succ bound ih =>
    by_cases hall : ∀ o ≤ bound, (ofText t).Fits o
    · have hnext : ¬(ofText t).Fits (bound + 1) := by
        intro hfits
        refine h fun o ho => ?_
        rcases Nat.le_succ_iff.1 ho with ho | rfl
        · exact hall o ho
        · exact hfits
      obtain ⟨o', ho', heq⟩ := exists_position_eq hnext (hall bound (Nat.le_refl _))
      exact ⟨bound, Nat.lt_succ_self _, hall bound (Nat.le_refl _), o', ho', hall o' (Nat.le_of_lt ho'), heq⟩
    · obtain ⟨o, ho, hrest⟩ := ih hall
      exact ⟨o, Nat.lt_succ_of_lt ho, hrest⟩

/-- Up to the bound, offsets have positions in their own order exactly if all of them fit. -/
theorem forall_le_position_iff {bound : Nat} :
    (∀ s e, s ≤ e → e ≤ bound → ((ofText t).position s).le ((ofText t).position e) = true) ↔
      ∀ o ≤ bound, (ofText t).Fits o := by
  constructor
  · intro h
    by_contra hunfit
    obtain ⟨o, ho, hfits, o', ho', hfits', heq⟩ := exists_position_eq_of_not_fits hunfit
    have hle := h o (o + 1) (Nat.le_succ o) ho
    rw [← heq, le_position_iff hfits hfits'] at hle
    exact Nat.not_le_of_lt ho' hle
  · intro hfits s e hse he
    exact (le_position_iff (hfits s (Nat.le_trans hse he)) (hfits e he)).2 hse

/-- Up to the bound, no two offsets share a position exactly if all of them fit. -/
theorem forall_position_inj_iff {bound : Nat} :
    (∀ s ≤ bound, ∀ e ≤ bound, (ofText t).position s = (ofText t).position e → s = e) ↔
      ∀ o ≤ bound, (ofText t).Fits o := by
  constructor
  · intro h
    by_contra hunfit
    obtain ⟨o, ho, -, o', ho', -, heq⟩ := exists_position_eq_of_not_fits hunfit
    have := h o' (by omega) (o + 1) ho heq
    omega
  · intro hfits s hs e he
    exact (position_inj (hfits s hs) (hfits e he)).1

end

/-! ## The order of positions -/

/-- **Positions.** Offsets whose line and column fit have positions in their own order, and positions of their own,
so a span between two of them is not turned round; any offset below `2^32` fits. Up to a bound the one and the other
hold of all offsets only if all of them fit. -/
theorem position_order_iff_fits (t : Text) :
    (∀ s e, (ofText t).Fits s → (ofText t).Fits e →
      (((ofText t).position s).le ((ofText t).position e) = true ↔ s ≤ e) ∧
      ((ofText t).position s = (ofText t).position e ↔ s = e)) ∧
    (∀ span : Span, span.start ≤ span.stop → (ofText t).Fits span.start → (ofText t).Fits span.stop →
      ((ofText t).range span).start.le ((ofText t).range span).stop = true) ∧
    (∀ o < UInt32.size, (ofText t).Fits o) ∧
    ∀ bound,
      ((∀ s e, s ≤ e → e ≤ bound → ((ofText t).position s).le ((ofText t).position e) = true) ↔
        ∀ o ≤ bound, (ofText t).Fits o) ∧
      ((∀ s ≤ bound, ∀ e ≤ bound, (ofText t).position s = (ofText t).position e → s = e) ↔
        ∀ o ≤ bound, (ofText t).Fits o) :=
  ⟨fun _ _ hs he => ⟨le_position_iff hs he, position_inj hs he⟩, fun _ h hs he => (le_position_iff hs he).2 h,
    fun _ => fits_of_lt, fun _ => ⟨forall_le_position_iff, forall_position_inj_iff⟩⟩

/-- On a second line an offset may be as large as `2^32` and fit. -/
theorem position_order_iff_fits_second_line :
    let index := ofText "\n"
    let span : Span := ⟨0, 4294967296⟩
    span.start ≤ span.stop ∧ index.Fits span.start ∧ index.Fits span.stop ∧
      (index.range span).start.le (index.range span).stop = true ∧
      index.position span.start ≠ index.position span.stop := by
  intro index span
  have hspan : span.start ≤ span.stop := by decide
  have hstart : index.Fits span.start := ⟨by decide, by decide⟩
  have hstop : index.Fits span.stop := ⟨by decide, by decide⟩
  obtain ⟨horder, hrange, -, -⟩ := position_order_iff_fits "\n"
  have hne : index.position span.start ≠ index.position span.stop := by
    rw [Ne, (horder _ _ hstart hstop).2]
    decide
  exact ⟨hspan, hstart, hstop, hrange span hspan hstart hstop, hne⟩

/-- Past the end of a text columns run on, and wrap. -/
theorem position_wraps_past_end :
    let index := ofText ""
    let span : Span := ⟨4294967295, 4294967296⟩
    span.start ≤ span.stop ∧ (index.range span).start.le (index.range span).stop = false ∧
      (index.position span.start).le (index.position span.stop) = false ∧
      index.position 0 = index.position span.stop := by
  decide

end LineIndex

end GraphqlBuild
