import GraphqlBuild.Proofs.Graphql.Sound
/-!
# The text in front of a comment

A `#` starts a comment unless it stands in a string, which only the lexer can tell. `beforeComment` is the text
in front of the first one (`Mode.beforeComment_eq_or`); what follows it on its line is one token
(`Lexer.run_of_comment`).
-/

namespace GraphqlBuild.Graphql

namespace Mode

/-- Where the lexer stands behind the character, if it stood in this mode in front of it. -/
def next (m : Mode) (c : Char) : Mode := ((step m c).getD (begin c)).mode

/-- The text up to the first comment, as read in this mode. -/
def beforeComment (m : Mode) : Text → Text
  | [] => []
  | c :: t => if m.next c = .comment then [] else c :: (m.next c).beforeComment t

end Mode

/-- The text up to its first comment. -/
def beforeComment (t : Text) : Text := Mode.ready.beforeComment t

/-! ## Where comments start -/

theorem step_comment {m : Mode} {c : Char} (hm : m ≠ .comment) (h : step m c = some (.more .comment)) :
    m = .ready ∧ c = '#' := by
  cases hplain : m.isPlain with
  | true =>
    by_cases hready : m = .ready
    · subst hready
      rcases begin_more (Option.some.inj h) with ⟨hplain, -⟩ | ⟨hquote, -⟩ | ⟨-, hc⟩
      · cases hplain
      · cases hquote
      · exact ⟨rfl, hc⟩
    · cases (step_plain hplain hready h).1
  | false =>
    have hstring : m.inString = true := by simp [Mode.inString, hplain, hm]
    cases step_inString hstring h

namespace Lexer
variable {lexer : Lexer} {c : Char}

theorem mode_advance (lexer : Lexer) (c : Char) : (lexer.advance c).2.mode = lexer.mode.next c := by
  unfold advance Mode.next
  cases step lexer.mode c <;> simp

theorem mode_feed (lexer : Lexer) (t : Text) : (lexer.feed t).2.mode = t.foldl Mode.next lexer.mode := by
  induction t generalizing lexer with
  | nil => rfl
  | cons c t ih => rw [feed_cons, ih, mode_advance, List.foldl_cons]

/-- In front of a comment the token at hand ends. -/
theorem advance_of_comment (hm : lexer.mode ≠ .comment) (h : lexer.mode.next c = .comment) :
    c = '#' ∧ (lexer.advance c).1 = lexer.flush ∧ (lexer.advance c).2.mode = .comment := by
  have hmore {s : Step} (hs : s.mode = .comment) : s = .more .comment := by
    cases s with
    | more m => exact congrArg Step.more hs
    | last outcome => cases hs
  have hmode := mode_advance lexer c
  rw [h] at hmode
  cases hstep : step lexer.mode c with
  | some s =>
    rw [Mode.next, hstep, Option.getD_some] at h
    obtain rfl := hmore h
    obtain ⟨hready, hc⟩ := step_comment hm hstep
    refine ⟨hc, ?_, hmode⟩
    rw [advance_of_step_eq_some hstep, flush, hready]
    rfl
  | none =>
    rw [Mode.next, hstep, Option.getD_none] at h
    have hbegin := hmore h
    refine ⟨(step_comment (m := .ready) (by simp) (congrArg some hbegin)).2, ?_, hmode⟩
    rw [advance_of_step_eq_none hstep, advance_between, hbegin]
    exact List.append_nil _

/-- A comment takes the rest of its line. -/
theorem run_of_comment (hm : lexer.mode = .comment) {t : Text} (ht : ∀ c ∈ t, endsLine c = false) :
    ∃ text, lexer.run t = [.token ⟨.comment, text, lexer.start⟩, .token ⟨.stop, "EOF", lexer.offset + t.size⟩] := by
  induction t generalizing lexer with
  | nil =>
    refine ⟨lexer.taken.reverse, ?_⟩
    rw [run_nil, flush, hm]
    rfl
  | cons c t ih =>
    have hstep : step lexer.mode c = some (.more .comment) := by simp [hm, step, ht c List.mem_cons_self]
    have hnext : (lexer.take c (.more .comment)).2.mode = .comment := rfl
    obtain ⟨text, hrun⟩ := ih hnext fun d hd => ht d (List.mem_cons_of_mem _ hd)
    refine ⟨text, ?_⟩
    rw [run_cons, advance_of_step_eq_some hstep, hrun, Text.size_cons, ← Nat.add_assoc]
    rfl

end Lexer

/-! ## The first comment -/

namespace Mode
variable {m : Mode} {t : Text}

theorem eq_of_next_comment {c : Char} (hm : m ≠ .comment) (h : m.next c = .comment) : c = '#' :=
  (@Lexer.advance_of_comment { mode := m } c hm h).1

/-- Either no comment starts, or one starts right behind the text in front of it, in which none does. -/
theorem beforeComment_eq_or (hm : m ≠ .comment) (t : Text) : m.beforeComment t = t ∨
    ∃ rest, t = m.beforeComment t ++ '#' :: rest ∧ ((m.beforeComment t).foldl next m).next '#' = .comment ∧
      m.beforeComment (m.beforeComment t) = m.beforeComment t := by
  induction t generalizing m with
  | nil => exact .inl rfl
  | cons c t ih =>
    simp only [beforeComment]
    split
    · rename_i hc
      obtain rfl := eq_of_next_comment hm hc
      exact .inr ⟨t, rfl, hc, rfl⟩
    · rename_i hc
      rcases ih hc with hnone | ⟨rest, ht, hcomment, hfree⟩
      · exact .inl (by rw [hnone])
      · refine .inr ⟨rest, congrArg (c :: ·) ht, hcomment, ?_⟩
        rw [beforeComment, if_neg hc, hfree]

theorem beforeComment_append_left {u : Text} (h : m.beforeComment (t ++ u) = t ++ u) : m.beforeComment t = t := by
  induction t generalizing m with
  | nil => rfl
  | cons c t ih =>
    rw [List.cons_append, beforeComment] at h
    split at h
    · cases h
    · rename_i hc
      rw [beforeComment, if_neg hc, ih (List.cons.inj h).2]

theorem beforeComment_of_notMem (hm : m ≠ .comment) (h : '#' ∉ t) : m.beforeComment t = t := by
  induction t generalizing m with
  | nil => rfl
  | cons c t ih =>
    simp only [List.mem_cons, not_or] at h
    have hnext : m.next c ≠ .comment := fun hc => h.1 (eq_of_next_comment hm hc).symm
    rw [beforeComment, if_neg hnext, ih hnext h.2]

theorem next_blank (c : Char) : Mode.blank.next c = Mode.ready.next c := by
  cases hc : isIgnoredBlank c with
  | true => simp [next, step, begin, hc, Step.mode]
  | false => simp [next, step, hc]

/-- Blanks in front hide no comment. -/
theorem beforeComment_of_blanks {lead : Text} (hlead : ∀ c ∈ lead, isIgnoredBlank c = true) (t : Text) :
    Mode.ready.beforeComment (lead ++ t) = lead ++ Mode.ready.beforeComment t := by
  have hblank (t : Text) : Mode.blank.beforeComment t = Mode.ready.beforeComment t := by
    cases t with
    | nil => rfl
    | cons c t => rw [beforeComment, beforeComment, next_blank]
  induction lead with
  | nil => rfl
  | cons c lead ih =>
    have hnext : Mode.ready.next c = .blank := by
      simp [next, step, begin, hlead c List.mem_cons_self, Step.mode]
    rw [List.cons_append, beforeComment, hnext, if_neg (by simp), hblank,
      ih fun d hd => hlead d (List.mem_cons_of_mem _ hd), List.cons_append]

end Mode

end GraphqlBuild.Graphql
