import GraphqlBuild.Proofs.Graphql.Ending
import GraphqlBuild.Proofs.Graphql.Strip
/-!
# What stripping does to a document

If every `#` on the last line of a string has a backslash in front of it, a text without faults has none
without its comments either, and the grammar reads the same words of it, but for what is cut out of block
strings (`words_stripComments`). In a text without quotation marks stripping hides no fault
(`faultless_of_stripComments`), so there it neither makes nor spoils a document (`document_stripComments`).
-/

namespace GraphqlBuild

namespace Graphql

/-- The words of a stripped text. -/
theorem words_stripComments {t : Text} (ht : faultsOf (lexemes t) = [])
    (hclosed : ∀ x ∈ stringTokens t, Uncommented none (closingLine x)) :
    faultsOf (lexemes (stripComments t)) = [] ∧ (Likeness.rewriting stripComments (· ∈ stringTokens t)).Words
      (wordsOf (tokensOf (lexemes t))) (wordsOf (tokensOf (lexemes (stripComments t)))) := by
  have hstep : Lexer.Stripping none (Lexer.between 0) (Lexer.between 0) := Lexer.stripping_between (by simp) 0 0
  obtain ⟨hsound, htokens⟩ := hstep.readsAlike hclosed ht fun u hu hkind => mem_stringTokens rfl hu hkind
  exact ⟨hsound, htokens.words⟩

/-! ## Texts without quotation marks -/

namespace Lexer
variable {lexer lexer' : Lexer} {c e : Char} {p : Option Char} {line t : Text}

theorem faultless_flush_iff : faultsOf lexer.flush = [] ↔ ∀ cause, finish lexer.mode ≠ some (.error cause) := by
  unfold flush
  cases finish lexer.mode with
  | none => simp
  | some outcome => cases outcome <;> simp [Lexeme.ofOutcome]

/-- Whether a character is a fault depends on the mode alone. -/
theorem faultless_advance_congr (h : lexer'.mode = lexer.mode) (hfault : faultsOf (lexer'.advance c).1 = []) :
    faultsOf (lexer.advance c).1 = [] := by
  have htake {l l' : Lexer} {s : Step} (hs : faultsOf (l'.take c s).1 = []) : faultsOf (l.take c s).1 = [] :=
    faultsOf_take.2 (faultsOf_take.1 hs)
  rcases advance_cases hfault with ⟨s, hs, -, hfault'⟩ | ⟨hs, hflush, hfault', -⟩
  · rw [h] at hs
    rw [advance_of_step_eq_some hs]
    exact htake hfault'
  · rw [h] at hs
    rw [advance_of_step_eq_none hs, faultsOf_append, List.append_eq_nil_iff, advance_between]
    rw [faultless_flush_iff, h, ← faultless_flush_iff] at hflush
    exact ⟨hflush, htake hfault'⟩

/-- A line end draws the faults that the end of the text would draw. -/
theorem faultless_flush_of_endsLine (hplain : lexer.mode.isPlain = true) (he : endsLine e = true)
    (hfault : faultsOf (lexer.advance e).1 = []) : faultsOf lexer.flush = [] := by
  rcases advance_cases hfault with ⟨s, hs, -, hfault'⟩ | ⟨-, hflush, -⟩
  · rcases step_of_stray hplain (.inr (.inr he)) with hready | hblank | ⟨-, cause, hstep⟩ | ⟨-, hnone⟩
    · rw [flush, hready]
      rfl
    · rw [flush, hblank]
      rfl
    · rw [hs] at hstep
      exact absurd (Option.some.inj hstep) (ne_error_of_faultless hfault' cause)
    · rw [hs] at hnone
      cases hnone
  · exact hflush

/-- Where the text might end, a comment can start. -/
theorem next_hash_of_faultless (hplain : lexer.mode.isPlain = true) (hflush : faultsOf lexer.flush = []) :
    lexer.mode.next '#' = .comment := by
  rcases step_of_stray (c := '#') hplain (.inl rfl) with hready | hblank | ⟨hpartial, -⟩ | ⟨-, hnone⟩
  · rw [hready]
    rfl
  · rw [hblank]
    rfl
  · obtain ⟨cause, hfinish⟩ := finish_of_isPartial hpartial
    exact absurd hfinish (faultless_flush_iff.1 hflush cause)
  · rw [Mode.next, hnone]
    rfl

theorem Plain.ne_comment (h : lexer.Plain) : lexer.mode ≠ .comment := by
  intro hcomment
  have hplain := h.mode
  rw [hcomment] at hplain
  cases hplain

/-- Outside of strings a backslash is a fault. -/
theorem Plain.ne_backslash (h : lexer.Plain) (hfault : faultsOf (lexer.advance c).1 = []) : c ≠ '\\' := by
  rintro rfl
  have hplain := (h.advance (c := '\\') (by decide) (by decide)).1.mode
  have hopen := isOpen_of_backslash h.ne_comment hfault
  rw [Mode.isPlain_of_inString (Mode.isOpen_iff.1 hopen).1] at hplain
  cases hplain

/-- A comment up to the end of the text, behind what might end there. -/
theorem Plain.sound_of_comment (h : lexer.Plain) (hflush : faultsOf lexer.flush = [])
    (hline : ∀ d ∈ t, endsLine d = false) : lexer.Sound ('#' :: t) := by
  obtain ⟨-, hlexemes, hmode⟩ := advance_of_comment h.ne_comment (next_hash_of_faultless h.mode hflush)
  obtain ⟨text, hrun⟩ := run_of_comment hmode hline
  rw [sound_cons, hlexemes, Sound, hrun]
  exact ⟨hflush, rfl⟩

/-- A comment up to the end of its line. -/
theorem Plain.sound_of_comment_line (h : lexer.Plain) (hflush : faultsOf lexer.flush = [])
    (hline : ∀ d ∈ line, endsLine d = false) (he : endsLine e = true)
    (hrest : ∀ next : Lexer, next.mode = .blank → next.Sound t) : lexer.Sound ('#' :: (line ++ e :: t)) := by
  obtain ⟨-, hlexemes, hmode⟩ := advance_of_comment h.ne_comment (next_hash_of_faultless h.mode hflush)
  obtain ⟨text, next, hrun, hblank⟩ := run_comment_line t hmode hline he
  rw [sound_cons, hlexemes, Sound, hrun]
  exact ⟨hflush, hrest next hblank⟩

theorem plain_of_blank (hm : lexer.mode = .blank) : lexer.Plain := by
  refine ⟨by rw [hm]; rfl, fun h => ?_⟩
  rw [hm] at h
  cases h

/-- By induction on the length of the text; where a comment is cut, what stood in front of it ends at the end of the
line or of the text instead. -/
theorem Plain.sound_of_stripComments (h : lexer.Plain) (hmode : lexer'.mode = lexer.mode) (hp : p ≠ some '\\')
    (hquote : '"' ∉ t) (hsound : lexer'.Sound (stripCommentsFrom false p t)) : lexer.Sound t := by
  induction hn : t.length using Nat.strong_induction_on generalizing p lexer lexer' t with
  | _ n ih =>
    cases t with
    | nil =>
      rw [stripCommentsFrom, sound_nil, faultless_flush_iff, hmode] at hsound
      exact sound_nil.2 (faultless_flush_iff.2 hsound)
    | cons c t =>
      obtain ⟨hc, hquote⟩ := not_or.1 (mt List.mem_cons.2 hquote)
      by_cases hhash : c = '#'
      · subst hhash
        have hflush (hfault : faultsOf lexer'.flush = []) : faultsOf lexer.flush = [] := by
          rw [faultless_flush_iff, hmode] at hfault
          exact faultless_flush_iff.2 hfault
        rw [stripCommentsFrom_hash hp] at hsound
        rcases line_cases t with hline | ⟨line, e, rest, rfl, hline, he⟩
        · rw [stripCommentsFrom_true_of_line hline, sound_nil] at hsound
          exact h.sound_of_comment (hflush hsound) hline
        · rw [stripCommentsFrom_true_of_endsLine hline he, sound_cons] at hsound
          obtain ⟨hfault, hrest⟩ := hsound
          have hplain' : lexer'.mode.isPlain = true := by rw [hmode, h.mode]
          have hflush := hflush (faultless_flush_of_endsLine hplain' he hfault)
          have hnext := of_next_hash h.ne_comment (next_hash_of_faultless h.mode hflush) he
          rw [← hmode] at hnext
          have hblank' := (advance_of_endsLine hnext he).1
          have he' : some e ≠ some '\\' := fun heq => ne_backslash_of_endsLine he (Option.some.inj heq)
          have hquote' : '"' ∉ rest := fun hm => hquote (by simp [hm])
          refine h.sound_of_comment_line hflush hline he fun next hblank => ?_
          exact ih rest.length (by simp at hn; omega) (plain_of_blank hblank) (hblank'.trans hblank.symm) he' hquote'
            hrest rfl
      · rw [stripCommentsFrom_cons fun hc => hhash hc.1, sound_cons] at hsound
        obtain ⟨hfault, hrest⟩ := hsound
        have hfault' := faultless_advance_congr hmode hfault
        have hnext := (h.advance (Ne.symm hc) hhash).1
        have hsame : (lexer'.advance c).2.mode = (lexer.advance c).2.mode := by
          rw [mode_advance, mode_advance, hmode]
        have hbackslash : some c ≠ some '\\' := fun heq => h.ne_backslash hfault' (Option.some.inj heq)
        exact sound_cons.2 ⟨hfault', ih t.length (by simp at hn; omega) hnext hsame hbackslash hquote hrest rfl⟩

end Lexer

/-- The step stays outside of strings, or ends a token that is none. -/
def Step.OutsideString : Step → Prop
  | more m => m.inString = false
  | last outcome => ∀ kind, outcome = .ok kind → kind ≠ .string

theorem step_outsideString {m : Mode} {c : Char} {s : Step} (hm : m.inString = false) (hc : c ≠ '"')
    (h : step m c = some s) : s.OutsideString := by
  have hplain {m : Mode} (hm : m.isPlain = true) : m.inString = false := by simp [Mode.inString, hm]
  by_cases hcomment : m = .comment
  · subst hcomment
    simp only [step] at h
    split at h
    · cases h
    · cases h
      rfl
  · have hm' : m.isPlain = true := by
      rcases Mode.isPlain_or_inString hcomment with hm' | hin
      · exact hm'
      · rw [hm] at hin
        cases hin
    cases s with
    | more m' =>
      by_cases hready : m = .ready
      · subst hready
        rcases begin_more (Option.some.inj h) with ⟨hplain', -⟩ | ⟨-, hquote⟩ | ⟨rfl, -⟩
        · exact hplain hplain'
        · exact absurd hquote hc
        · rfl
      · exact hplain (step_plain hm' hready h).1
    | last outcome =>
      rintro kind rfl
      exact (step_plain_last hm' h).2.1

namespace Lexer
variable {lexer : Lexer} {c : Char} {t : Text}

theorem flush_outsideString (hm : lexer.mode.inString = false) : ∀ u ∈ tokensOf lexer.flush, u.kind ≠ .string := by
  cases hfinish : finish lexer.mode with
  | none => simp [flush, hfinish]
  | some outcome =>
    cases outcome with
    | error cause => simp [flush, hfinish, Lexeme.ofOutcome]
    | ok kind =>
      have hkind : kind ≠ .string := by
        by_cases hcomment : lexer.mode = .comment
        · rw [hcomment] at hfinish
          cases hfinish
          simp
        · rcases Mode.isPlain_or_inString hcomment with hplain | hin
          · exact finish_plain hplain hfinish
          · rw [hm] at hin
            cases hin
      simpa [flush, hfinish, Lexeme.ofOutcome] using hkind

theorem advance_outsideString (hm : lexer.mode.inString = false) (hc : c ≠ '"') :
    (∀ u ∈ tokensOf (lexer.advance c).1, u.kind ≠ .string) ∧ (lexer.advance c).2.mode.inString = false := by
  have htake {l : Lexer} {s : Step} (hs : s.OutsideString) :
      (∀ u ∈ tokensOf (l.take c s).1, u.kind ≠ .string) ∧ (l.take c s).2.mode.inString = false := by
    cases s with
    | more m => exact ⟨by simp [take], hs⟩
    | last outcome =>
      refine ⟨?_, rfl⟩
      cases outcome with
      | ok kind => simpa [take, Lexeme.ofOutcome] using hs kind rfl
      | error cause => simp [take, Lexeme.ofOutcome]
  unfold advance
  split
  · rename_i s hs
    exact htake (step_outsideString hm hc hs)
  · obtain ⟨htokens, hmode⟩ := htake (l := between lexer.offset) (step_outsideString (m := .ready) rfl hc rfl)
    dsimp only
    rw [tokensOf_append]
    exact ⟨List.forall_mem_append.2 ⟨flush_outsideString hm, htokens⟩, hmode⟩

/-- Without a quotation mark no string begins. -/
theorem run_outsideString (hm : lexer.mode.inString = false) (hquote : '"' ∉ t) :
    ∀ u ∈ tokensOf (lexer.run t), u.kind ≠ .string := by
  induction t generalizing lexer with
  | nil =>
    rw [run_nil, tokensOf_append]
    exact List.forall_mem_append.2 ⟨flush_outsideString hm, by simp⟩
  | cons c t ih =>
    obtain ⟨hc, hquote⟩ := not_or.1 (mt List.mem_cons.2 hquote)
    obtain ⟨htokens, hmode⟩ := advance_outsideString hm (Ne.symm hc)
    rw [run_cons, tokensOf_append]
    exact List.forall_mem_append.2 ⟨htokens, ih hmode hquote⟩

end Lexer

theorem stringTokens_of_notMem {t : Text} (hquote : '"' ∉ t) : stringTokens t = [] := by
  rw [stringTokens, List.map_eq_nil_iff, List.filter_eq_nil_iff]
  intro w hw hkind
  obtain ⟨u, hu, hsame⟩ := exists_token_of_mem hw
  rw [← hsame] at hkind
  exact Lexer.run_outsideString rfl hquote u hu (by simpa using hkind)

/-- A text without quotation marks has no fault that stripping hides. -/
theorem faultless_of_stripComments {t : Text} (hquote : '"' ∉ t) (h : faultsOf (lexemes (stripComments t)) = []) :
    faultsOf (lexemes t) = [] :=
  (Lexer.plain_between 0).sound_of_stripComments rfl (by simp) hquote h

/-- Stripping neither makes nor spoils a document without quotation marks. -/
theorem document_stripComments {t : Text} (hquote : '"' ∉ t) :
    (validate (stripComments t) = .ok () ↔ validate t = .ok ()) ∧
      (validate t = .ok () → (Document.ofText (stripComments t)).1 = (Document.ofText t).1) := by
  have hnone := stringTokens_of_notMem hquote
  have hwords (ht : faultsOf (lexemes t) = []) := words_stripComments ht (by simp [hnone])
  have hiff (ht : faultsOf (lexemes t) = []) : validate (stripComments t) = .ok () ↔ validate t = .ok () :=
    (hwords ht).2.validate_iff ht (hwords ht).1
  refine ⟨⟨fun h => ?_, fun h => ?_⟩, fun h => ?_⟩
  · exact (hiff (faultless_of_stripComments hquote (validate_eq_ok_iff.1 h).1)).1 h
  · exact (hiff (validate_eq_ok_iff.1 h).1).2 h
  · have halike := (hwords (validate_eq_ok_iff.1 h).1).2.document.1
    refine (Document.Alike.eq (Likeness.eq_of_values ?_) halike).symm
    rintro x x' ⟨hx, -⟩
    rw [hnone] at hx
    cases hx

end Graphql

end GraphqlBuild
