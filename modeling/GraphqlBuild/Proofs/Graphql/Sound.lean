import GraphqlBuild.Proofs.Graphql.Blank
import GraphqlBuild.Proofs.Graphql.Lexer
import GraphqlBuild.Proofs.Graphql.Mode
/-!
# Texts without lexical faults

If no token of a text is faulty, no flaw is ever seen in a string (`Lexer.Sound.flaw?_eq_none`), outside of
strings only blanks that the language ignores are met (`Lexer.isIgnoredBlank_of_faultless`), and no string is
open where only blanks are left (`Lexer.Sound.of_inString`).
-/

namespace GraphqlBuild.Graphql

namespace Lexer
variable {lexer : Lexer} {c : Char} {s : Step}

/-- No token is faulty if the lexer goes on with the text. -/
def Sound (lexer : Lexer) (t : Text) : Prop := faultsOf (lexer.run t) = []

theorem sound_nil : lexer.Sound [] ↔ faultsOf lexer.flush = [] := by
  rw [Sound, run_nil, faultsOf_append, faultsOf_token, faultsOf_nil, List.append_nil]

theorem sound_cons {t : Text} :
    lexer.Sound (c :: t) ↔ faultsOf (lexer.advance c).1 = [] ∧ (lexer.advance c).2.Sound t := by
  rw [Sound, run_cons, faultsOf_append, List.append_eq_nil_iff, Sound]

theorem sound_append {t u : Text} :
    lexer.Sound (t ++ u) ↔ faultsOf (lexer.feed t).1 = [] ∧ (lexer.feed t).2.Sound u := by
  rw [Sound, run_append, faultsOf_append, List.append_eq_nil_iff, Sound]

/-! ## One character -/

theorem advance_of_step_eq_some (h : step lexer.mode c = some s) : lexer.advance c = lexer.take c s := by
  rw [advance, h]

@[simp] theorem mode_take (lexer : Lexer) (c : Char) (s : Step) : (lexer.take c s).2.mode = s.mode := by
  cases s <;> rfl

/-- What ends with the character is no fault. -/
theorem faultsOf_take :
    faultsOf (lexer.take c s).1 = [] ↔ ∀ outcome, s = .last outcome → ∃ kind, outcome = .ok kind := by
  cases s with
  | more m => simp [take]
  | last outcome => cases outcome <;> simp [take, Lexeme.ofOutcome]

theorem ne_error_of_faultless (hfault : faultsOf (lexer.take c s).1 = []) (cause : LexicalFault) :
    s ≠ .last (.error cause) := by
  rintro rfl
  obtain ⟨kind, hkind⟩ := faultsOf_take.1 hfault _ rfl
  cases hkind

theorem advance_between (offset : Nat) (c : Char) :
    (between offset).advance c = (between offset).take c (begin c) := rfl

/-- A character without a fault continues or ends the token at hand, or starts one behind it. -/
theorem advance_cases (hfault : faultsOf (lexer.advance c).1 = []) :
    (∃ s, step lexer.mode c = some s ∧ lexer.advance c = lexer.take c s ∧ faultsOf (lexer.take c s).1 = []) ∨
      step lexer.mode c = none ∧ faultsOf lexer.flush = [] ∧
        faultsOf ((between lexer.offset).take c (begin c)).1 = [] ∧
        lexer.advance c = (lexer.flush ++ ((between lexer.offset).take c (begin c)).1,
          ((between lexer.offset).take c (begin c)).2) := by
  cases hstep : step lexer.mode c with
  | some s =>
    rw [advance_of_step_eq_some hstep] at hfault ⊢
    exact .inl ⟨s, rfl, rfl, hfault⟩
  | none =>
    have hadvance := advance_of_step_eq_none hstep
    rw [advance_between] at hadvance
    rw [hadvance, faultsOf_append, List.append_eq_nil_iff] at hfault
    exact .inr ⟨rfl, hfault.1, hfault.2, hadvance⟩

/-! ## Flaws -/

/-- By induction on the text; a flaw is kept until the string ends in a fault. -/
theorem not_sound_of_flaw (h : lexer.mode.flaw?.isSome = true) (t : Text) : ¬lexer.Sound t := by
  induction t generalizing lexer with
  | nil =>
    rw [sound_nil, flush, finish_flawed h]
    simp [Lexeme.ofOutcome]
  | cons c t ih =>
    obtain ⟨s, hs, hflaw⟩ := step_flawed h c
    rw [sound_cons, advance_of_step_eq_some hs]
    rintro ⟨hfault, hrest⟩
    cases s with
    | more m => exact ih (by simpa [Step.mode, Step.Flawed] using hflaw) hrest
    | last outcome =>
      obtain ⟨cause, rfl⟩ := hflaw
      exact ne_error_of_faultless hfault cause rfl

theorem Sound.flaw?_eq_none {t : Text} (h : lexer.Sound t) : lexer.mode.flaw? = none := by
  rw [← Option.not_isSome_iff_eq_none]
  exact fun hflaw => not_sound_of_flaw hflaw t h

/-! ## Blanks -/

/-- Outside of strings and comments a blank without a fault is one that the language ignores. -/
theorem isIgnoredBlank_of_faultless (hm : lexer.mode.isPlain = true) (hc : isBlank c = true)
    (hfault : faultsOf (lexer.advance c).1 = []) : isIgnoredBlank c = true := by
  by_contra hforeign
  have hstep {m : Mode} {l : Lexer} {s : Step} (hm : m.isPlain = true) (hs : step m c = some s) :
      faultsOf (l.take c s).1 ≠ [] := by
    intro hfault
    rcases step_plain_of_isBlank hm hc hs with ⟨hignored, -⟩ | ⟨cause, rfl⟩
    · exact hforeign hignored
    · exact ne_error_of_faultless hfault cause rfl
  rcases advance_cases hfault with ⟨s, hs, -, hfault⟩ | ⟨-, -, hfault, -⟩
  · exact hstep hm hs hfault
  · exact hstep (m := .ready) rfl rfl hfault

/-- By induction on the blanks in front; in a text without faults the language ignores them. -/
theorem IsBetween.ignored_of_sound {lead t : Text} (h : lexer.IsBetween) (hsound : lexer.Sound (lead ++ t))
    (hlead : ∀ c ∈ lead, isBlank c = true) : ∀ c ∈ lead, isIgnoredBlank c = true := by
  induction lead generalizing lexer with
  | nil => simp
  | cons c lead ih =>
    obtain ⟨hc, hlead⟩ := List.forall_mem_cons.1 hlead
    obtain ⟨hfault, hrest⟩ := sound_cons.1 hsound
    have hplain : lexer.mode.isPlain = true := by rcases h with h | h <;> rw [h] <;> rfl
    have hignored := isIgnoredBlank_of_faultless hplain hc hfault
    exact List.forall_mem_cons.2 ⟨hignored, ih (.inl (h.advance_of_blank hignored).2) hrest hlead⟩

/-- By induction on the blanks; none of them ends a string, the empty one aside. -/
theorem Sound.of_inString {t : Text} (h : lexer.Sound t) (ht : ∀ c ∈ t, isBlank c = true)
    (hm : lexer.mode.inString = true) : lexer.mode = .quotes := by
  by_contra hquotes
  induction t generalizing lexer with
  | nil =>
    rw [sound_nil, flush] at h
    cases hfinish : finish lexer.mode with
    | none => cases hmode : lexer.mode <;> simp_all [finish, Mode.inString, Mode.isPlain]
    | some outcome =>
      cases outcome with
      | ok kind => exact hquotes (finish_inString hm hfinish).1
      | error cause => simp [hfinish, Lexeme.ofOutcome] at h
  | cons c t ih =>
    rcases step_inString_of_isBlank hm (ht c List.mem_cons_self) with ⟨hmode, -⟩ | ⟨m, hstep, hm', hquotes', -⟩
    · exact hquotes hmode
    · rw [sound_cons, advance_of_step_eq_some hstep] at h
      exact ih h.2 (fun d hd => ht d (List.mem_cons_of_mem _ hd)) (by rwa [mode_take]) (by rwa [mode_take])

/-- Where only blanks are left, the token at hand ends with the first of them unless it is one of blanks. -/
theorem Sound.step_eq_none {t : Text} (h : lexer.Sound (c :: t)) (ht : ∀ d ∈ c :: t, isBlank d = true)
    (hcomment : lexer.mode ≠ .comment) (hbetween : ¬(lexer.mode = .blank ∨ lexer.mode = .ready)) :
    step lexer.mode c = none := by
  have hc := ht c List.mem_cons_self
  rcases Mode.isPlain_or_inString hcomment with hplain | hstring
  · rcases advance_cases (sound_cons.1 h).1 with ⟨s, hs, -, hfault⟩ | ⟨hnone, -⟩
    · rcases step_plain_of_isBlank hplain hc hs with ⟨-, rfl⟩ | ⟨cause, rfl⟩
      · have hready : lexer.mode ≠ .ready := fun hm => hbetween (.inr hm)
        exact absurd (.inl ((step_plain hplain hready hs).2.2.2.2 rfl)) hbetween
      · exact absurd rfl (ne_error_of_faultless hfault cause)
    · exact hnone
  · rw [h.of_inString ht hstring, step_of_isBlank hc]
    rfl

end Lexer

end GraphqlBuild.Graphql
