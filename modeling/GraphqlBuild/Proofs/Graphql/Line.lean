import GraphqlBuild.Proofs.Comment
import GraphqlBuild.Proofs.Graphql.Comment
import Mathlib.Data.List.DropRight
/-!
# Lines in the lexer

A comment ends with its line (`Lexer.run_comment_line`), and so does a quoted string, be it with a flaw; only a
block string goes on. So where a string has a bare `#` on the line that it has come to, and no string token of the
text has one on its last line, it is a block string with another line to come (`Lexer.exists_line_of_isOpen`).
-/

namespace GraphqlBuild

namespace Graphql

variable {c : Char} {m m' : Mode}

/-- No comment starts in a string. -/
theorem next_ne_comment_of_isOpen (hm : m.isOpen = true) (c : Char) : m.next c ≠ .comment := by
  obtain ⟨s, hs⟩ := exists_step_of_isOpen hm c
  have hstring := step_inString (Mode.isOpen_iff.1 hm).1 hs
  rw [Mode.next, hs, Option.getD_some]
  cases s with
  | more m' =>
    rintro rfl
    cases hstring
  | last outcome => simp [Step.mode]

/-! ## Ends of lines -/

theorem isBlank_of_endsLine (hc : endsLine c = true) : isBlank c = true := by
  simp only [endsLine, Bool.or_eq_true, beq_iff_eq] at hc
  rcases hc with rfl | rfl <;> decide

theorem isIgnoredBlank_of_endsLine (hc : endsLine c = true) : isIgnoredBlank c = true := by
  simp only [endsLine, Bool.or_eq_true, beq_iff_eq] at hc
  rcases hc with rfl | rfl <;> decide

theorem ne_backslash_of_endsLine (hc : endsLine c = true) : c ≠ '\\' := by
  rintro rfl
  cases hc

/-- A block string goes on over the end of a line. -/
theorem step_inBlock_of_endsLine (hm : m.inBlock = true) (hc : endsLine c = true) : step m c = some (.more .block) := by
  rw [step_of_isBlank (isBlank_of_endsLine hc)]
  cases m with
  | block | blockQuote | blockQuotes | blockEscape | blockEscapeQuote | blockEscapeQuotes => rfl
  | _ => cases hm

/-- Behind its first character a quoted string does not. -/
theorem step_isOpen_of_endsLine (hm : m.isOpen = true) (hquote : m ≠ .quote) (hblock : m.inBlock = false)
    (hc : endsLine c = true) : ∃ m', step m c = some (.more m') ∧ m'.flaw?.isSome = true := by
  rw [step_of_isBlank (isBlank_of_endsLine hc)]
  cases m with
  | quote => exact absurd rfl hquote
  | chars flaw => exact ⟨_, rfl, by simp [hc, Mode.flaw?]⟩
  | escape | unicode | unicodeDigits | pairBackslash | pairLetter | scalar => exact ⟨_, rfl, rfl⟩
  | block | blockQuote | blockQuotes | blockEscape | blockEscapeQuote | blockEscapeQuotes => cases hblock
  | _ => cases hm

/-- The last line of a text; a line feed and a carriage return both end one. -/
def closingLine (t : Text) : Text := t.rtakeWhile fun c => !endsLine c

theorem closingLine_concat (t : Text) (hc : endsLine c = false) : closingLine (t ++ [c]) = closingLine t ++ [c] := by
  rw [closingLine, List.rtakeWhile_concat, hc]
  rfl

end Graphql

theorem uncommented_concat {p : Option Char} {t : Text} {c : Char} :
    Uncommented p (t ++ [c]) ↔ Uncommented p t ∧ (c = '#' → t.getLast?.or p = some '\\') := by
  induction t generalizing p with
  | nil => simp [Uncommented]
  | cons d t ih =>
    have hlast : (d :: t).getLast?.or p = t.getLast?.or (some d) := by
      rw [List.getLast?_cons]
      cases t.getLast? <;> rfl
    rw [List.cons_append, Uncommented, ih, Uncommented, hlast, and_assoc]

namespace Graphql

/-- A `#` that no backslash precedes is one on the last line. -/
theorem not_uncommented_closingLine {t : Text} (h : t.getLast? ≠ some '\\') :
    ¬Uncommented none (closingLine (t ++ ['#'])) := by
  rw [closingLine_concat t (by decide), uncommented_concat]
  rintro ⟨-, hlast⟩
  have hlast := hlast rfl
  rw [Option.or_none] at hlast
  obtain ⟨before, hbefore⟩ : closingLine t <:+ t := List.rtakeWhile_suffix ..
  rw [← hbefore, List.getLast?_append, hlast] at h
  exact h rfl

/-- A text is on one line, or has a first line end. -/
theorem line_cases (t : Text) : (∀ c ∈ t, endsLine c = false) ∨
    ∃ line e rest, t = line ++ e :: rest ∧ (∀ c ∈ line, endsLine c = false) ∧ endsLine e = true := by
  induction t with
  | nil => exact .inl (by simp)
  | cons c t ih =>
    cases hc : endsLine c with
    | true => exact .inr ⟨[], c, t, rfl, by simp, hc⟩
    | false =>
      rcases ih with hnone | ⟨line, e, rest, rfl, hline, he⟩
      · exact .inl (List.forall_mem_cons.2 ⟨hc, hnone⟩)
      · exact .inr ⟨c :: line, e, rest, rfl, List.forall_mem_cons.2 ⟨hc, hline⟩, he⟩

namespace Lexer
variable {lexer : Lexer} {line t : Text} {e : Char}

/-! ## Comments -/

/-- A comment is the rest of its line, and blanks follow. -/
theorem run_comment_line (rest : Text) (hm : lexer.mode = .comment) (hline : ∀ c ∈ line, endsLine c = false)
    (he : endsLine e = true) : ∃ (text : Text) (next : Lexer),
      lexer.run (line ++ e :: rest) = .token ⟨.comment, text, lexer.start⟩ :: next.run rest ∧ next.mode = .blank := by
  induction line generalizing lexer with
  | nil =>
    have hstep : step lexer.mode e = none := by simp [hm, step, he]
    have hbegin : begin e = .more .blank := by simp [begin, isIgnoredBlank_of_endsLine he]
    refine ⟨lexer.taken.reverse, ((between lexer.offset).take e (.more .blank)).2, ?_, rfl⟩
    rw [List.nil_append, run_of_step_eq_none hstep, run_cons, advance_between, hbegin, flush, hm]
    rfl
  | cons c line ih =>
    obtain ⟨hc, hline⟩ := List.forall_mem_cons.1 hline
    have hstep : step lexer.mode c = some (.more .comment) := by simp [hm, step, hc]
    have hmode : (lexer.take c (.more .comment)).2.mode = .comment := rfl
    obtain ⟨text, next, hrun, hnext⟩ := ih hmode hline
    refine ⟨text, next, ?_, hnext⟩
    rw [List.cons_append, run_cons, advance_of_step_eq_some hstep, hrun]
    rfl

/-! ## Strings over several lines -/

/-- If the last line of what is at hand of a string has a `#` that no backslash precedes, and that of no string
token has, the string goes on over the end of the line. -/
theorem exists_line_of_isOpen (hm : lexer.mode.isOpen = true) (hquote : lexer.mode ≠ .quote)
    (hopen : ¬Uncommented none (closingLine lexer.taken.reverse)) (hsound : lexer.Sound t)
    (hclosed : ∀ u ∈ tokensOf (lexer.run t), u.kind = .string → Uncommented none (closingLine u.text)) :
    lexer.mode.inBlock = true ∧ ∃ line e rest, t = line ++ e :: rest ∧ (∀ c ∈ line, endsLine c = false) ∧
      endsLine e = true ∧ (lexer.feed (line ++ [e])).1 = [] ∧ (lexer.feed (line ++ [e])).2.mode = .block ∧
      (lexer.feed (line ++ [e])).2.taken = (line ++ [e]).reverse ++ lexer.taken := by
  induction t generalizing lexer with
  | nil =>
    obtain ⟨hstring, hquotes⟩ := Mode.isOpen_iff.1 hm
    exact absurd (hsound.of_inString (by simp) hstring) hquotes
  | cons c t ih =>
    cases hc : endsLine c with
    | true =>
      cases hblock : lexer.mode.inBlock with
      | true =>
        refine ⟨rfl, [], c, t, rfl, by simp, hc, ?_⟩
        rw [List.nil_append, feed_cons, advance_of_step_eq_some (step_inBlock_of_endsLine hblock hc)]
        exact ⟨rfl, rfl, rfl⟩
      | false =>
        obtain ⟨m, hstep, hflaw⟩ := step_isOpen_of_endsLine hm hquote hblock hc
        rw [sound_cons, advance_of_step_eq_some hstep] at hsound
        exact absurd hsound.2 (not_sound_of_flaw hflaw t)
    | false =>
      rw [sound_cons] at hsound
      rw [run_cons, tokensOf_append] at hclosed
      obtain ⟨s, hstep, hs⟩ := step_isOpen (c := c) hm fun h => absurd h hquote
      rcases hs with ⟨m, rfl, hm', hquote', hsame⟩ | ⟨rfl, outcome, rfl⟩
      · rw [advance_of_step_eq_some hstep] at hsound hclosed
        have hopen' : ¬Uncommented none (closingLine (lexer.take c (.more m)).2.taken.reverse) := by
          intro h
          have hlonger : Uncommented none (closingLine lexer.taken.reverse ++ [c]) := by
            rw [← closingLine_concat _ hc]
            simpa [take] using h
          exact hopen hlonger.left
        obtain ⟨hblock, line, e, rest, rfl, hline, he, hnone, hmode, htaken⟩ := ih hm' hquote' hopen' hsound.2
          fun u hu => hclosed u (List.mem_append_right _ hu)
        refine ⟨by rwa [← hsame], c :: line, e, rest, rfl, List.forall_mem_cons.2 ⟨hc, hline⟩, he, ?_⟩
        rw [List.cons_append, feed_cons, advance_of_step_eq_some hstep]
        refine ⟨hnone, hmode, htaken.trans ?_⟩
        simp [take]
      · rw [advance_of_step_eq_some hstep] at hsound hclosed
        obtain ⟨kind, rfl⟩ := faultsOf_take.1 hsound.1 _ rfl
        have hkind := step_inString (Mode.isOpen_iff.1 hm).1 hstep kind rfl
        have hend := hclosed ⟨kind, ('"' :: lexer.taken).reverse, lexer.start⟩ (by simp [take, Lexeme.ofOutcome]) hkind
        rw [List.reverse_cons, closingLine_concat _ hc] at hend
        exact absurd hend.left hopen

end Lexer

end Graphql

end GraphqlBuild
