import GraphqlBuild.Proofs.Graphql.Abreast
import GraphqlBuild.Proofs.Text.Collapse
/-!
# Reading a squeezed text

Two lexers that read a text without faults and the same text with one space for each run of blanks go abreast
(`Lexer.Squeezing`). Every character keeps them so (`Lexer.Squeezing.advance`, `Lexer.Squeezing.skip`), and hence
every text without a comment does (`Lexer.Squeezing.feed`).
-/

namespace GraphqlBuild

theorem Text.squeeze_concat (t : Text) (c : Char) :
    (t ++ [c]).squeeze = t.squeeze ++ squeezeFrom ((t.getLast?.map isBlank).getD false) [c] :=
  squeezeFrom_append false t [c]

namespace Graphql

/-- The character that is written for `c` if it is written at all. -/
def spaced (c : Char) : Char := if isBlank c then ' ' else c

theorem squeeze_concat_spaced {x : Text} {c : Char} {pending : Bool}
    (hlast : (x.getLast?.map isBlank).getD false = pending) (hpending : isBlank c = true → pending = false) :
    (x ++ [c]).squeeze = x.squeeze ++ [spaced c] := by
  rw [Text.squeeze_concat, hlast]
  cases hc : isBlank c with
  | true => simp [Text.squeezeFrom, spaced, hc, hpending hc]
  | false => simp [Text.squeezeFrom, spaced, hc]

/-- Lexemes without a fault, and those of the squeezed text. -/
abbrev SqueezedLexemes : List Lexeme → List Lexeme → Prop := RewrittenLexemes Text.squeeze

/-- What is at hand of a string, and what is of the same string squeezed. `pending` says that the last character
was a blank. -/
structure SqueezedSoFar (pending : Bool) (x x' : Text) : Prop where
  squeeze : x' = x.squeeze
  last : (x.getLast?.map isBlank).getD false = pending

theorem writes_spaced {pending : Bool} {c : Char} (hpending : isBlank c = true → pending = false) :
    Writes (SqueezedSoFar pending) (SqueezedSoFar (isBlank c)) c (spaced c) where
  solid hc := by simp [spaced, hc]
  quote hc := by
    subst hc
    exact ⟨rfl, rfl⟩
  string h := by
    refine ⟨?_, by simp⟩
    rw [squeeze_concat_spaced h.last hpending, h.squeeze]

/-- A blank that follows a blank is not written. -/
theorem AtHand.skip {m : Mode} {x x' : Text} {c : Char} (h : AtHand (SqueezedSoFar true) m x x')
    (hm : m = .blank ∨ m.inString = true) (hc : isBlank c = true) : AtHand (SqueezedSoFar true) m (x ++ [c]) x' := by
  rcases hm with rfl | hstring
  · exact .of_plain rfl fun h => absurd rfl h
  · obtain ⟨hhead, hsqueeze, hlast⟩ := h.string hstring
    refine .of_string hstring (head?_append_of_some hhead) ⟨?_, by simp [hc]⟩
    rw [Text.squeeze_concat, hlast, hsqueeze]
    simp [Text.squeezeFrom, hc]

/-! ## One character -/

section Spaced
variable {m : Mode} {c : Char}

/-- For the lexer the space that is written is as good as the blank. -/
theorem step_spaced {s : Step} (hm : m ≠ .comment)
    (hignored : m.isPlain = true → isBlank c = true → isIgnoredBlank c = true) (h : step m c = some s)
    (hflaw : s.mode.flaw? = none) (hlast : ∀ cause, s ≠ .last (.error cause)) : step m (spaced c) = some s := by
  cases hc : isBlank c with
  | false => rwa [spaced, hc]
  | true =>
    rw [step_of_isBlank hc] at h
    rw [spaced, if_pos hc, step_of_isBlank (by decide)]
    cases m with
    | ready | blank =>
      simp only [blankStep, hignored rfl hc] at h
      exact h
    | comment => exact absurd rfl hm
    | dot | minus | point | exponent | exponentSign =>
      cases h
      exact absurd rfl (hlast _)
    | chars flaw =>
      rw [← h]
      obtain rfl := Option.some.inj h
      have hnone : (if endsLine c then some Flaw.lineTerminator else flaw) = none := hflaw
      have hspace : endsLine ' ' = false := rfl
      cases hline : endsLine c with
      | true => simp [hline] at hnone
      | false => simp [blankStep, hline, hspace]
    | _ => exact h

theorem step_spaced_eq_none (hm : m ≠ .comment)
    (hignored : m.isPlain = true → isBlank c = true → isIgnoredBlank c = true) (h : step m c = none) :
    step m (spaced c) = none := by
  cases hc : isBlank c with
  | false => rwa [spaced, hc]
  | true =>
    rw [step_of_isBlank hc] at h
    rw [spaced, if_pos hc, step_of_isBlank (by decide)]
    cases m with
    | blank => simp [blankStep, hignored rfl hc] at h
    | comment => exact absurd rfl hm
    | name | dots | zero | int | fraction | exponentDigits | quotes => rfl
    | _ => cases h

end Spaced

namespace Lexer

/-- The second lexer reads the squeezed text. Behind a blank both stand in blanks or in a string. -/
structure Squeezing (pending : Bool) (lexer lexer' : Lexer) : Prop extends
    Abreast (SqueezedSoFar pending) lexer lexer' where
  pending : pending = true → lexer.mode = .blank ∨ lexer.mode = .chars none ∨ lexer.mode = .block

theorem squeezing_between (offset offset' : Nat) : Squeezing false (between offset) (between offset') where
  toAbreast := abreast_between offset offset'
  pending := by simp

variable {pending : Bool} {lexer lexer' : Lexer} {c : Char}

theorem Squeezing.flush (h : Squeezing pending lexer lexer') (hfault : faultsOf lexer.flush = []) :
    SqueezedLexemes lexer.flush lexer'.flush :=
  h.toAbreast.flush (fun _ _ => SqueezedSoFar.squeeze) hfault

/-- A blank without a fault and without a flaw stands in blanks or in a string. -/
theorem mode_of_isBlank {m : Mode} {s : Step} (hm : m ≠ .comment) (hc : isBlank c = true) (h : step m c = some s)
    (hflaw : s.mode.flaw? = none) (hlast : ∀ cause, s ≠ .last (.error cause)) :
    ∃ m', s = .more m' ∧ (m' = .blank ∨ m' = .chars none ∨ m' = .block) := by
  rcases Mode.isPlain_or_inString hm with hplain | hstring
  · rcases step_plain_of_isBlank hplain hc h with ⟨-, hs⟩ | ⟨cause, hs⟩
    · exact ⟨_, hs, .inl rfl⟩
    · exact absurd hs (hlast cause)
  · rcases step_inString_of_isBlank hstring hc with ⟨-, hnone⟩ | ⟨m', hmore, -, -, hstay⟩
    · rw [hnone] at h
      cases h
    · rw [hmore] at h
      obtain rfl := Option.some.inj h
      exact ⟨m', rfl, .inr (hstay hflaw)⟩

/-- Without a fault and a flaw the space is as good as the blank, and both stand in blanks or in a string. -/
theorem step_spaced_of_faultless (hm : lexer.mode ≠ .comment) (hfault : faultsOf (lexer.advance c).1 = [])
    (hflaw : (lexer.mode.next c).flaw? = none) :
    step lexer.mode (spaced c) = step lexer.mode c ∧ (step lexer.mode c = none → begin (spaced c) = begin c) ∧
      (isBlank c = true →
        lexer.mode.next c = .blank ∨ lexer.mode.next c = .chars none ∨ lexer.mode.next c = .block) := by
  have hignored (hm : lexer.mode.isPlain = true) (hc : isBlank c = true) := isIgnoredBlank_of_faultless hm hc hfault
  rcases advance_cases hfault with ⟨s, hs, -, hfault'⟩ | ⟨hs, -, hfault', -⟩
  · have hlast := ne_error_of_faultless hfault'
    rw [Mode.next, hs, Option.getD_some] at hflaw ⊢
    refine ⟨step_spaced hm hignored hs hflaw hlast, by simp, fun hc => ?_⟩
    obtain ⟨m, rfl, hmode⟩ := mode_of_isBlank hm hc hs hflaw hlast
    exact hmode
  · have hlast := ne_error_of_faultless hfault'
    rw [Mode.next, hs, Option.getD_none] at hflaw ⊢
    have hbegin : step .ready (spaced c) = some (begin c) := step_spaced (by simp)
      (fun _ hc => @isIgnoredBlank_of_faultless (between lexer.offset) c rfl hc hfault') rfl hflaw hlast
    refine ⟨step_spaced_eq_none hm hignored hs, fun _ => Option.some.inj hbegin, fun hc => ?_⟩
    obtain ⟨m, hmore, hmode⟩ := mode_of_isBlank (m := .ready) (by simp) hc rfl hflaw hlast
    rw [hmore]
    exact hmode

/-- A character that is written. -/
theorem Squeezing.advance (h : Squeezing pending lexer lexer') (hpending : isBlank c = true → pending = false)
    (hfault : faultsOf (lexer.advance c).1 = []) (hcomment : lexer.mode.next c ≠ .comment)
    (hflaw : (lexer.mode.next c).flaw? = none) :
    SqueezedLexemes (lexer.advance c).1 (lexer'.advance (spaced c)).1 ∧
      Squeezing (isBlank c) (lexer.advance c).2 (lexer'.advance (spaced c)).2 := by
  obtain ⟨hstep, hbegin, hblank⟩ := step_spaced_of_faultless h.comment hfault hflaw
  obtain ⟨hlexemes, hnext⟩ := h.toAbreast.advance (writes_spaced hpending) (fun _ _ => SqueezedSoFar.squeeze)
    (fun _ _ => SqueezedSoFar.squeeze) hstep hbegin hfault hcomment
  refine ⟨hlexemes, hnext, fun hc => ?_⟩
  rw [mode_advance]
  exact hblank hc

/-- A blank that is not written. -/
theorem Squeezing.skip (h : Squeezing true lexer lexer') (hc : isBlank c = true)
    (hfault : faultsOf (lexer.advance c).1 = []) (hflaw : (lexer.mode.next c).flaw? = none) :
    (lexer.advance c).1 = [] ∧ Squeezing true (lexer.advance c).2 lexer' := by
  have hmode := h.pending rfl
  have hstay : step lexer.mode c = some (.more lexer.mode) := by
    rw [step_of_isBlank hc]
    rcases hmode with hmode | hmode | hmode
    · have hignored := isIgnoredBlank_of_faultless (by rw [hmode]; rfl) hc hfault
      simp [hmode, blankStep, hignored]
    · have hline : endsLine c = false := by
        simpa [hmode, Mode.next, step_of_isBlank hc, blankStep, Step.mode, Mode.flaw?] using hflaw
      simp [hmode, blankStep, hline]
    · rw [hmode]
      rfl
  rw [advance_of_step_eq_some hstay]
  refine ⟨rfl, ⟨h.mode, h.comment, ?_, fun hm => absurd hm (step_ne_ready hstay)⟩, fun _ => hmode⟩
  have hskip := h.atHand.skip (hmode.imp_right fun hm => by rcases hm with hm | hm <;> rw [hm] <;> rfl) hc
  simpa [Lexer.take] using hskip

/-! ## A text -/

/-- By induction on the text; a blank is written unless one was written just before. -/
theorem Squeezing.feed (h : Squeezing pending lexer lexer') {t rest : Text} (hsound : lexer.Sound (t ++ rest))
    (hfree : lexer.mode.beforeComment t = t) :
    SqueezedLexemes (lexer.feed t).1 (lexer'.feed (Text.squeezeFrom pending t)).1 ∧
      ∃ pending', Squeezing pending' (lexer.feed t).2 (lexer'.feed (Text.squeezeFrom pending t)).2 := by
  induction t generalizing pending lexer lexer' with
  | nil => exact ⟨.nil, pending, h⟩
  | cons c t ih =>
    rw [List.cons_append, sound_cons] at hsound
    obtain ⟨hfault, hrest⟩ := hsound
    rw [Mode.beforeComment] at hfree
    split at hfree
    · cases hfree
    · rename_i hcomment
      have hflaw := hrest.flaw?_eq_none
      rw [mode_advance] at hflaw
      have hfree' : (lexer.advance c).2.mode.beforeComment t = t := by
        rw [mode_advance]
        exact (List.cons.inj hfree).2
      rw [feed_cons, Text.squeezeFrom]
      by_cases hskip : isBlank c = true ∧ pending = true
      · obtain ⟨hc, rfl⟩ := hskip
        obtain ⟨hnone, hnext⟩ := h.skip hc hfault hflaw
        obtain ⟨hlexemes, hlast⟩ := ih hnext hrest hfree'
        rw [if_pos hc, if_pos rfl, hnone]
        exact ⟨hlexemes, hlast⟩
      · obtain ⟨hlexemes, hnext⟩ := h.advance (fun hc => by simpa [hc] using hskip) hfault hcomment hflaw
        obtain ⟨hmore, hlast⟩ := ih hnext hrest hfree'
        have hwritten : (if isBlank c then if pending then Text.squeezeFrom true t else ' ' :: Text.squeezeFrom true t
            else c :: Text.squeezeFrom false t) = spaced c :: Text.squeezeFrom (isBlank c) t := by
          cases hc : isBlank c <;> simp_all [spaced]
        rw [hwritten, feed_cons]
        exact ⟨hlexemes.append hmore, hlast⟩

end Lexer

end Graphql

end GraphqlBuild
