import GraphqlBuild.Proofs.Graphql.Abreast
import GraphqlBuild.Proofs.Graphql.Line
/-!
# Reading a text without its comments

Stripping does not know of strings, so what it takes for a comment may be part of one. Two lexers that read a text
without faults and what stripping leaves of it go abreast behind every character that is left
(`Lexer.Stripping`). A comment, and the rest of a line of a block string, they pass in one go
(`Lexer.Stripping.readsAlike_of_comment_line`, `Lexer.Stripping.of_string_line`), so they find the same tokens, but
for what is cut out of block strings (`Lexer.Stripping.readsAlike`).
-/

namespace GraphqlBuild

open Graphql (endsLine)

/-! ## Stripping line by line -/

variable {p : Option Char} {c e : Char} {line rest x x' : Text}

theorem stripCommentsFrom_true_of_line (hline : ∀ d ∈ line, endsLine d = false) :
    stripCommentsFrom true p line = [] := by
  induction line generalizing p with
  | nil => rfl
  | cons d line ih =>
    obtain ⟨hd, hline⟩ := List.forall_mem_cons.1 hline
    have hend : ¬(d = '\n' ∨ d = '\r') := by simpa [endsLine] using hd
    rw [stripCommentsFrom, if_pos rfl, if_neg hend, ih hline]

theorem stripCommentsFrom_true_of_endsLine (hline : ∀ d ∈ line, endsLine d = false) (he : endsLine e = true) :
    stripCommentsFrom true p (line ++ e :: rest) = e :: stripCommentsFrom false (some e) rest := by
  induction line generalizing p with
  | nil =>
    have hend : e = '\n' ∨ e = '\r' := by simpa [endsLine] using he
    rw [List.nil_append, stripCommentsFrom, if_pos rfl, if_pos hend]
  | cons d line ih =>
    obtain ⟨hd, hline⟩ := List.forall_mem_cons.1 hline
    have hend : ¬(d = '\n' ∨ d = '\r') := by simpa [endsLine] using hd
    rw [List.cons_append, stripCommentsFrom, if_pos rfl, if_neg hend, ih hline]

theorem stripCommentsFrom_hash (hp : p ≠ some '\\') (t : Text) :
    stripCommentsFrom false p ('#' :: t) = stripCommentsFrom true (some '#') t := by
  rw [stripCommentsFrom, if_neg (by simp), if_pos ⟨rfl, hp⟩]

theorem stripCommentsFrom_cons (hc : ¬(c = '#' ∧ p ≠ some '\\')) (t : Text) :
    stripCommentsFrom false p (c :: t) = c :: stripCommentsFrom false (some c) t := by
  rw [stripCommentsFrom, if_neg (by simp), if_neg hc]

/-- Of `x` stripping makes `x'`, whatever follows, and goes on outside of a comment behind the character `p`. -/
def StripsTo (p : Option Char) (x x' : Text) : Prop :=
  ∀ t, stripComments (x ++ t) = x' ++ stripCommentsFrom false p t

theorem StripsTo.stripComments_eq (h : StripsTo p x x') : stripComments x = x' := by
  have hall := h []
  rwa [List.append_nil, stripCommentsFrom, List.append_nil] at hall

theorem StripsTo.keep (h : StripsTo p x x') (hc : ¬(c = '#' ∧ p ≠ some '\\')) :
    StripsTo (some c) (x ++ [c]) (x' ++ [c]) := by
  intro t
  rw [List.append_assoc, h, List.singleton_append, stripCommentsFrom_cons hc, List.append_assoc]
  rfl

theorem StripsTo.cut (h : StripsTo p x x') (hp : p ≠ some '\\') (hline : ∀ d ∈ line, endsLine d = false)
    (he : endsLine e = true) : StripsTo (some e) (x ++ '#' :: (line ++ [e])) (x' ++ [e]) := by
  intro t
  have htext : x ++ '#' :: (line ++ [e]) ++ t = x ++ '#' :: (line ++ e :: t) := by simp
  rw [htext, h, stripCommentsFrom_hash hp, stripCommentsFrom_true_of_endsLine hline he, List.append_assoc]
  rfl

theorem stripsTo_quote : StripsTo (some '"') ['"'] ['"'] := fun _ => rfl

namespace Graphql

variable {m : Mode} {lexer lexer' : Lexer}

theorem keepsQuote_stripComments : KeepsQuote stripComments := by
  intro x hx
  obtain ⟨t, rfl⟩ := List.head?_eq_some_iff.1 hx
  rfl

/-! ## Characters that are in no token but strings and comments -/

/-- The lexer is in a token that cannot end here. -/
def Mode.isPartial : Mode → Bool
  | .dot | .minus | .point | .exponent | .exponentSign => true
  | _ => false

theorem finish_of_isPartial (hm : m.isPartial = true) : ∃ cause, finish m = some (.error cause) := by
  cases m with
  | dot | minus | point | exponent | exponentSign => exact ⟨_, rfl⟩
  | _ => cases hm

/-- A `#`, a backslash or a line end cuts a token off, or ends one. -/
theorem step_of_stray (hm : m.isPlain = true) (hc : c = '#' ∨ c = '\\' ∨ endsLine c = true) :
    m = .ready ∨ m = .blank ∨ m.isPartial = true ∧ (∃ cause, step m c = some (.last (.error cause))) ∨
      m.isPartial = false ∧ step m c = none := by
  have hblank (hc : endsLine c = true) : step m c = blankStep c m := step_of_isBlank (isBlank_of_endsLine hc) m
  cases m with
  | ready => exact .inl rfl
  | blank => exact .inr (.inl rfl)
  | dot | minus | point | exponent | exponentSign =>
    refine .inr (.inr (.inl ⟨rfl, ?_⟩))
    rcases hc with rfl | rfl | hc
    · exact ⟨_, rfl⟩
    · exact ⟨_, rfl⟩
    · exact ⟨_, hblank hc⟩
  | name | dots | zero | int | fraction | exponentDigits =>
    refine .inr (.inr (.inr ⟨rfl, ?_⟩))
    rcases hc with rfl | rfl | hc
    · rfl
    · rfl
    · exact hblank hc
  | _ => cases hm

/-- Where a comment can start, a line end ends the token at hand, or goes on with blanks. -/
theorem of_next_hash (hm : m ≠ .comment) (h : m.next '#' = .comment) (he : endsLine e = true) :
    m = .blank ∨ m = .ready ∨ step m e = none := by
  rcases Mode.isPlain_or_inString hm with hplain | hstring
  · rcases step_of_stray (c := '#') hplain (.inl rfl) with hready | hblank | ⟨-, cause, hstep⟩ | ⟨hpartial, -⟩
    · exact .inr (.inl hready)
    · exact .inl hblank
    · rw [Mode.next, hstep] at h
      cases h
    · rcases step_of_stray hplain (.inr (.inr he)) with hready | hblank | ⟨hpartial', -⟩ | ⟨-, hnone⟩
      · exact .inr (.inl hready)
      · exact .inl hblank
      · rw [hpartial] at hpartial'
        cases hpartial'
      · exact .inr (.inr hnone)
  · by_cases hquotes : m = .quotes
    · rw [hquotes, step_of_isBlank (isBlank_of_endsLine he)]
      exact .inr (.inr rfl)
    · exact absurd h (next_ne_comment_of_isOpen (Mode.isOpen_iff.2 ⟨hstring, hquotes⟩) '#')

namespace Lexer

/-- A `#` that is no fault starts a comment, or stands in a string that has not ended. -/
theorem isOpen_of_hash (hm : lexer.mode ≠ .comment) (hfault : faultsOf (lexer.advance '#').1 = [])
    (hnext : lexer.mode.next '#' ≠ .comment) : lexer.mode.isOpen = true := by
  rcases Mode.isPlain_or_inString hm with hplain | hstring
  · rcases step_of_stray (c := '#') hplain (.inl rfl) with hready | hblank | ⟨-, cause, hstep⟩ | ⟨-, hnone⟩
    · rw [hready] at hnext
      exact absurd rfl hnext
    · rw [hblank] at hnext
      exact absurd rfl hnext
    · rw [advance_of_step_eq_some hstep] at hfault
      exact absurd rfl (ne_error_of_faultless hfault cause)
    · rw [Mode.next, hnone] at hnext
      exact absurd rfl hnext
  · refine Mode.isOpen_iff.2 ⟨hstring, fun hquotes => ?_⟩
    rw [hquotes] at hnext
    exact absurd rfl hnext

/-- Behind a backslash that is no fault the lexer is in a string that has not ended. -/
theorem isOpen_of_backslash (hm : lexer.mode ≠ .comment) (hfault : faultsOf (lexer.advance '\\').1 = []) :
    (lexer.advance '\\').2.mode.isOpen = true := by
  have hfresh (hnone : step lexer.mode '\\' = none) : False := by
    rw [advance_of_step_eq_none hnone, faultsOf_append, List.append_eq_nil_iff] at hfault
    cases hfault.2
  rcases Mode.isPlain_or_inString hm with hplain | hstring
  · rcases step_of_stray (c := '\\') hplain (.inr (.inl rfl)) with hready | hblank | ⟨-, cause, hstep⟩ | ⟨-, hnone⟩
    · have hstep : step lexer.mode '\\' = some (begin '\\') := by rw [hready, step]
      rw [advance_of_step_eq_some hstep] at hfault
      exact absurd rfl (ne_error_of_faultless hfault (.unexpected '\\'))
    · refine (hfresh ?_).elim
      rw [hblank]
      rfl
    · rw [advance_of_step_eq_some hstep] at hfault
      exact absurd rfl (ne_error_of_faultless hfault cause)
    · exact (hfresh hnone).elim
  · have hquotes : lexer.mode ≠ .quotes := by
      intro hquotes
      refine hfresh ?_
      rw [hquotes]
      rfl
    obtain ⟨s, hs, hstep⟩ := step_isOpen (c := '\\') (Mode.isOpen_iff.2 ⟨hstring, hquotes⟩) fun _ => by decide
    rw [advance_of_step_eq_some hs, mode_take]
    rcases hstep with ⟨m', rfl, hopen, -⟩ | ⟨hquote, -⟩
    · exact hopen
    · cases hquote

/-! ## Characters that are left -/

/-- What is at hand of a string that ends in `p`, and what is of the same string stripped. -/
structure StrippedSoFar (p : Option Char) (x x' : Text) : Prop where
  last : x.getLast? = p
  stripsTo : StripsTo p x x'

theorem StrippedSoFar.eq_stripComments (h : StrippedSoFar p x x') : x' = stripComments x :=
  h.stripsTo.stripComments_eq.symm

theorem writes_left (hc : ¬(c = '#' ∧ p ≠ some '\\')) : Writes (StrippedSoFar p) (StrippedSoFar (some c)) c c where
  solid _ := rfl
  quote hquote := by
    subst hquote
    exact ⟨rfl, stripsTo_quote⟩
  string h := ⟨by simp, h.stripsTo.keep hc⟩

/-- The second lexer reads the stripped text, and both stand behind the character `previous` that is in both. -/
structure Stripping (previous : Option Char) (lexer lexer' : Lexer) : Prop extends
    Abreast (StrippedSoFar previous) lexer lexer' where
  backslash : previous = some '\\' → lexer.mode.isOpen = true

theorem stripping_between (hp : p ≠ some '\\') (offset offset' : Nat) :
    Stripping p (between offset) (between offset') where
  toAbreast := abreast_between offset offset'
  backslash h := absurd h hp

theorem stripping_of_blank (he : endsLine e = true) (hm : lexer.mode = .blank) (hm' : lexer'.mode = .blank) :
    Stripping (some e) lexer lexer' where
  toAbreast := abreast_of_blank hm hm'
  backslash h := absurd (Option.some.inj h) (ne_backslash_of_endsLine he)

theorem Stripping.flush (h : Stripping p lexer lexer') (hfault : faultsOf lexer.flush = []) :
    RewrittenLexemes stripComments lexer.flush lexer'.flush :=
  h.toAbreast.flush (fun _ _ => StrippedSoFar.eq_stripComments) hfault

/-- A character that is left. -/
theorem Stripping.advance (h : Stripping p lexer lexer') (hc : ¬(c = '#' ∧ p ≠ some '\\'))
    (hfault : faultsOf (lexer.advance c).1 = []) :
    RewrittenLexemes stripComments (lexer.advance c).1 (lexer'.advance c).1 ∧
      Stripping (some c) (lexer.advance c).2 (lexer'.advance c).2 := by
  have hcomment : lexer.mode.next c ≠ .comment := by
    intro hnext
    have hhash := Mode.eq_of_next_comment h.comment hnext
    have hp : p = some '\\' := not_not.1 fun hp => hc ⟨hhash, hp⟩
    exact next_ne_comment_of_isOpen (h.backslash hp) c hnext
  obtain ⟨hlexemes, hnext⟩ := h.toAbreast.advance (writes_left hc) (fun _ _ => StrippedSoFar.eq_stripComments)
    (fun _ _ => StrippedSoFar.eq_stripComments) rfl (fun _ => rfl) hfault hcomment
  refine ⟨hlexemes, hnext, fun hbackslash => ?_⟩
  obtain rfl := Option.some.inj hbackslash
  exact isOpen_of_backslash h.comment hfault

end Lexer

/-! ## A text -/

section ReadsAlike
variable {strings : Text → Prop}

/-- Blanks and comments may be left over in front of a blank. -/
theorem Likeness.Tokens.prepend {ts ts' : List Graphql.Token}
    (h : (Likeness.rewriting stripComments strings).Tokens ts ts')
    (hts : ∀ m ∈ ts.head?, m.kind = .blank ∨ m.kind = .comment) {g : Graphql.Token}
    (hg : g.kind = .blank ∨ g.kind = .comment) :
    (Likeness.rewriting stripComments strings).Tokens (g :: ts) ts' := by
  cases h with
  | @stop t t' more more' ht hstop hmore hmore' _ =>
    rw [← List.cons_append]
    exact .stop ht hstop (List.forall_mem_cons.2 ⟨hg, hmore⟩) hmore' fun _ _ _ _ => trivial
  | @cons t t' rest rest' ht hrest =>
    have hkind : t.kind = .blank ∨ t.kind = .comment := hts t rfl
    have hkind' : t'.kind = .blank ∨ t'.kind = .comment := ht.kind ▸ hkind
    have hgap : ∀ m ∈ [g, t], m.kind = .blank ∨ m.kind = .comment := by simp [hg, hkind]
    have hgap' : ∀ m ∈ [t'], m.kind = .blank ∨ m.kind = .comment := by simp [hkind']
    exact .gap hgap hgap' trivial hrest
  | gap hgap hgap' _ hrest => exact .gap (List.forall_mem_cons.2 ⟨hg, hgap⟩) hgap' trivial hrest

namespace Lexer

/-- The second lexer finds no fault in its text, and the same tokens but for what stripping makes of strings. -/
structure ReadsAlike (strings : Text → Prop) (lexer : Lexer) (t : Text) (lexer' : Lexer) (t' : Text) : Prop where
  sound : lexer'.Sound t'
  tokens : (Likeness.rewriting stripComments strings).Tokens (tokensOf (lexer.run t)) (tokensOf (lexer'.run t'))

/-- All string tokens that the lexer finds are such texts. -/
def StringsAmong (strings : Text → Prop) (lexer : Lexer) (t : Text) : Prop :=
  ∀ u ∈ tokensOf (lexer.run t), u.kind = .string → strings u.text

theorem stringsAmong_nil :
    lexer.StringsAmong strings [] ↔ ∀ u ∈ tokensOf lexer.flush, u.kind = .string → strings u.text := by
  rw [StringsAmong, run_nil, tokensOf_append, List.forall_mem_append]
  simp

theorem stringsAmong_cons {t : Text} : lexer.StringsAmong strings (c :: t) ↔
    (∀ u ∈ tokensOf (lexer.advance c).1, u.kind = .string → strings u.text) ∧
      (lexer.advance c).2.StringsAmong strings t := by
  rw [StringsAmong, run_cons, tokensOf_append, List.forall_mem_append, StringsAmong]

theorem head?_run_of_blank (hm : lexer.mode = .blank) (t : Text) :
    ∀ m ∈ (tokensOf (lexer.run t)).head?, m.kind = .blank := by
  induction t generalizing lexer with
  | nil =>
    rw [run_nil, flush, hm]
    rintro _ ⟨⟩
    rfl
  | cons c t ih =>
    cases hc : isIgnoredBlank c with
    | true =>
      have hstep : step lexer.mode c = some (.more .blank) := by simp [hm, step, hc]
      rw [run_cons, advance_of_step_eq_some hstep]
      exact ih rfl
    | false =>
      have hstep : step lexer.mode c = none := by simp [hm, step, hc]
      rw [run_of_step_eq_none hstep, flush, hm]
      rintro _ ⟨⟩
      rfl

/-- A line end that ends the token at hand, or goes on with blanks. -/
theorem advance_of_endsLine (hm : lexer.mode = .blank ∨ lexer.mode = .ready ∨ step lexer.mode e = none)
    (he : endsLine e = true) : (lexer.advance e).2.mode = .blank ∧
      (lexer.mode = .blank ∧ (lexer.advance e).1 = [] ∨ lexer.mode ≠ .blank ∧ (lexer.advance e).1 = lexer.flush) := by
  have hblank := isIgnoredBlank_of_endsLine he
  have hbegin : begin e = .more .blank := by simp [begin, hblank]
  rcases hm with hm | hm | hm
  · have hstep : step lexer.mode e = some (.more .blank) := by simp [hm, step, hblank]
    rw [advance_of_step_eq_some hstep]
    exact ⟨rfl, .inl ⟨hm, rfl⟩⟩
  · have hstep : step lexer.mode e = some (.more .blank) := by rw [hm, step, hbegin]
    rw [advance_of_step_eq_some hstep, flush, hm]
    exact ⟨rfl, .inr ⟨by simp, rfl⟩⟩
  · have hmode : lexer.mode ≠ .blank := by
      intro hmode
      simp [hmode, step, hblank] at hm
    rw [advance_of_step_eq_none hm, advance_between, hbegin]
    exact ⟨rfl, .inr ⟨hmode, List.append_nil _⟩⟩

variable (h : Stripping p lexer lexer')
include h

/-- A comment up to the end of the text. -/
theorem Stripping.readsAlike_of_comment (hnext : lexer.mode.next '#' = .comment)
    (hline : ∀ d ∈ line, endsLine d = false) (hsound : lexer.Sound ('#' :: line))
    (hstring : lexer.StringsAmong strings ('#' :: line)) : ReadsAlike strings lexer ('#' :: line) lexer' [] := by
  obtain ⟨-, hlexemes, hcomment⟩ := advance_of_comment h.comment hnext
  obtain ⟨text, hrun⟩ := run_of_comment hcomment hline
  rw [sound_cons, hlexemes] at hsound
  obtain ⟨htokens, hfault⟩ := h.flush hsound.1
  rw [stringsAmong_cons, hlexemes] at hstring
  refine ⟨sound_nil.2 hfault, ?_⟩
  rw [run_cons, run_nil, hlexemes, hrun, tokensOf_append, tokensOf_append]
  exact Likeness.tokens_rewriting_append keepsQuote_stripComments htokens hstring.1
    (Likeness.tokens_rewriting_stop [_] [] _ _ (by simp) (by simp))

/-- A comment up to the end of its line. -/
theorem Stripping.readsAlike_of_comment_line (hnext : lexer.mode.next '#' = .comment)
    (hline : ∀ d ∈ line, endsLine d = false) (he : endsLine e = true) {rest' : Text}
    (hsound : lexer.Sound ('#' :: (line ++ e :: rest)))
    (hstring : lexer.StringsAmong strings ('#' :: (line ++ e :: rest)))
    (hrest : ∀ {next next' : Lexer}, Stripping (some e) next next' → next.Sound rest → next.StringsAmong strings rest →
      ReadsAlike strings next rest next' rest') :
    ReadsAlike strings lexer ('#' :: (line ++ e :: rest)) lexer' (e :: rest') := by
  obtain ⟨-, hlexemes, hcomment⟩ := advance_of_comment h.comment hnext
  obtain ⟨text, next, hrun, hblank⟩ := run_comment_line rest hcomment hline he
  have hmode := of_next_hash h.comment hnext he
  rw [← h.mode] at hmode
  obtain ⟨hblank', hadvance⟩ := advance_of_endsLine hmode he
  rw [sound_cons, hlexemes, Sound, hrun, faultsOf_token] at hsound
  rw [stringsAmong_cons, hlexemes, StringsAmong, hrun, tokensOf_token] at hstring
  obtain ⟨hsound', htokens⟩ := hrest (stripping_of_blank he hblank hblank') hsound.2
    (List.forall_mem_cons.1 hstring.2).2
  have hhead := head?_run_of_blank hblank rest
  have hcommented : (Likeness.rewriting stripComments strings).Tokens
      (⟨.comment, text, (lexer.advance '#').2.start⟩ :: tokensOf (next.run rest))
      (tokensOf ((lexer'.advance e).2.run rest')) := htokens.prepend (fun m hm => .inl (hhead m hm)) (.inr rfl)
  refine ⟨?_, ?_⟩
  · rw [sound_cons]
    refine ⟨?_, hsound'⟩
    rcases hadvance with ⟨-, hnone⟩ | ⟨-, hflush⟩
    · rw [hnone, faultsOf_nil]
    · rw [hflush, (h.flush hsound.1).faultless]
  · rw [run_cons, run_cons, hlexemes, hrun, tokensOf_append, tokensOf_append, tokensOf_token]
    rcases hadvance with ⟨hmode, hnone⟩ | ⟨-, hflush⟩
    · rw [h.mode] at hmode
      rw [hnone, Lexer.flush, hmode]
      exact hcommented.prepend (by simp) (.inl rfl)
    · rw [hflush]
      exact Likeness.tokens_rewriting_append keepsQuote_stripComments (h.flush hsound.1).tokens hstring.1 hcommented

/-- A line of a block string up to its end, from a `#` on. -/
theorem Stripping.of_string_line (hopen : lexer.mode.isOpen = true) (hp : p ≠ some '\\')
    (hclosed : ∀ x, strings x → Uncommented none (closingLine x)) {t : Text}
    (hsound : lexer.Sound ('#' :: t)) (hstring : lexer.StringsAmong strings ('#' :: t)) :
    ∃ line e rest, t = line ++ e :: rest ∧ (∀ d ∈ line, endsLine d = false) ∧ endsLine e = true ∧
      ∃ next next', lexer.run ('#' :: t) = next.run rest ∧ (∀ t', lexer'.run (e :: t') = next'.run t') ∧
        Stripping (some e) next next' := by
  obtain ⟨hin, -⟩ := Mode.isOpen_iff.1 hopen
  obtain ⟨hhead, hlast, hstrips⟩ := h.atHand.string hin
  obtain ⟨s, hs, ⟨m, rfl, hopen', hquote, hsame⟩ | ⟨hquote, -⟩⟩ := step_isOpen (c := '#') hopen fun _ => by decide
  · rw [sound_cons, advance_of_step_eq_some hs] at hsound
    rw [stringsAmong_cons, advance_of_step_eq_some hs] at hstring
    have hbare : ¬Uncommented none (closingLine (lexer.take '#' (.more m)).2.taken.reverse) := by
      have : lexer.taken.reverse.getLast? ≠ some '\\' := by rwa [hlast]
      simpa [Lexer.take] using not_uncommented_closingLine this
    obtain ⟨hblock, line, e, rest, rfl, hline, he, hnone, hmode, htaken⟩ :=
      exists_line_of_isOpen hopen' hquote hbare hsound.2 fun u hu hkind => hclosed _ (hstring.2 u hu hkind)
    have hsplit : line ++ e :: rest = line ++ [e] ++ rest := by simp
    have hstep : step lexer'.mode e = some (.more .block) := by
      rw [h.mode]
      exact step_inBlock_of_endsLine (hsame ▸ hblock) he
    have htaken' : ((lexer.take '#' (.more m)).2.feed (line ++ [e])).2.taken.reverse =
        lexer.taken.reverse ++ '#' :: (line ++ [e]) := by
      rw [htaken]
      simp [Lexer.take]
    have hnext : Stripping (some e) ((lexer.take '#' (.more m)).2.feed (line ++ [e])).2
        (lexer'.take e (.more .block)).2 := by
      refine ⟨⟨hmode.symm, by simp [hmode], .of_string (by rw [hmode]; rfl) ?_ ⟨?_, ?_⟩, ?_⟩, fun _ => ?_⟩
      · rw [htaken']
        exact head?_append_of_some hhead
      · rw [htaken, List.getLast?_reverse]
        simp
      · rw [htaken']
        simpa [Lexer.take] using hstrips.cut hp hline he
      · simp [hmode]
      · rw [hmode]
        rfl
    refine ⟨line, e, rest, rfl, hline, he, _, _, ?_, fun t' => ?_, hnext⟩
    · rw [run_cons, advance_of_step_eq_some hs, hsplit, run_append, hnone]
      rfl
    · rw [run_cons, advance_of_step_eq_some hstep]
      rfl
  · cases hquote

/-- By induction on the length of the text; a comment, and what stripping takes for one in a block string, is passed
in one go. -/
theorem Stripping.readsAlike (hclosed : ∀ x, strings x → Uncommented none (closingLine x)) {t : Text}
    (hsound : lexer.Sound t) (hstring : lexer.StringsAmong strings t) :
    ReadsAlike strings lexer t lexer' (stripCommentsFrom false p t) := by
  induction hn : t.length using Nat.strong_induction_on generalizing p lexer lexer' t with
  | _ n ih =>
    cases t with
    | nil =>
      obtain ⟨htokens, hfault⟩ := h.flush (sound_nil.1 hsound)
      refine ⟨sound_nil.2 hfault, ?_⟩
      rw [stripCommentsFrom, run_nil, run_nil, tokensOf_append, tokensOf_append]
      exact Likeness.tokens_rewriting_append keepsQuote_stripComments htokens (stringsAmong_nil.1 hstring)
        (Likeness.tokens_rewriting_stop [] [] _ _ (by simp) (by simp))
    | cons c t =>
      by_cases hc : c = '#' ∧ p ≠ some '\\'
      · obtain ⟨rfl, hp⟩ := hc
        rw [stripCommentsFrom_hash hp]
        by_cases hnext : lexer.mode.next '#' = .comment
        · rcases line_cases t with hline | ⟨line, e, rest, rfl, hline, he⟩
          · rw [stripCommentsFrom_true_of_line hline]
            exact h.readsAlike_of_comment hnext hline hsound hstring
          · rw [stripCommentsFrom_true_of_endsLine hline he]
            refine h.readsAlike_of_comment_line hnext hline he hsound hstring fun hstep hsound' hstring' => ?_
            exact ih rest.length (by simp at hn; omega) hstep hsound' hstring' rfl
        · have hopen := isOpen_of_hash h.comment (sound_cons.1 hsound).1 hnext
          obtain ⟨line, e, rest, rfl, hline, he, next, next', hrun, hrun', hstep⟩ :=
            h.of_string_line hopen hp hclosed hsound hstring
          rw [Sound, hrun] at hsound
          rw [StringsAmong, hrun] at hstring
          obtain ⟨hsound', htokens⟩ := ih rest.length (by simp at hn; omega) hstep hsound hstring rfl
          rw [stripCommentsFrom_true_of_endsLine hline he]
          refine ⟨?_, ?_⟩
          · rw [Sound, hrun', hsound']
          · rw [hrun, hrun']
            exact htokens
      · obtain ⟨hfault, hsound⟩ := sound_cons.1 hsound
        obtain ⟨hfirst, hstring⟩ := stringsAmong_cons.1 hstring
        obtain ⟨hlexemes, hnext⟩ := h.advance hc hfault
        obtain ⟨hsound', htokens⟩ := ih t.length (by simp at hn; omega) hnext hsound hstring rfl
        rw [stripCommentsFrom_cons hc]
        refine ⟨sound_cons.2 ⟨hlexemes.faultless, hsound'⟩, ?_⟩
        rw [run_cons, run_cons, tokensOf_append, tokensOf_append]
        exact Likeness.tokens_rewriting_append keepsQuote_stripComments hlexemes.tokens hfirst htokens

end Lexer

end ReadsAlike

end Graphql

end GraphqlBuild
