import GraphqlBuild.Proofs.Graphql.Lexer
import GraphqlBuild.Proofs.Graphql.Mode
/-!
# Blanks around a text

Blanks in front of a text move all that is said about it (`Likeness.words_of_blanks_around`). Blanks behind it
change what is said about the end and no more: the end itself moves, blanks the language does not know are
faults, and a number cut off by the end is cut off by a blank instead (`LexicalFault.IsEnding`).
-/

namespace GraphqlBuild.Graphql

/-! ## Outside of strings and comments -/

theorem begin_plain {c : Char} {m : Mode} (hquote : c ≠ '"') (hsharp : c ≠ '#') (h : begin c = .more m) :
    m.isPlain = true ∧ m ≠ .ready ∧ (m = .blank → isIgnoredBlank c = true) := by
  rcases begin_more h with h | ⟨-, hc⟩ | ⟨-, hc⟩
  · exact h
  · exact absurd hc hquote
  · exact absurd hc hsharp

namespace Lexer

/-- The lexer is in no string and no comment, and between tokens it has nothing at hand. -/
structure Plain (lexer : Lexer) : Prop where
  mode : lexer.mode.isPlain = true
  ready : lexer.mode = .ready → lexer = between lexer.offset

theorem plain_between (offset : Nat) : (between offset).Plain := ⟨rfl, fun _ => rfl⟩

theorem Plain.advance {lexer : Lexer} (h : lexer.Plain) {c : Char} (hquote : c ≠ '"') (hsharp : c ≠ '#') :
    (lexer.advance c).2.Plain ∧ ((lexer.advance c).2.mode = .blank → isIgnoredBlank c = true) := by
  have htake {l : Lexer} {s : Step} (hs : ∀ m, s = .more m → m.isPlain = true ∧ m ≠ .ready ∧
      (m = .blank → isIgnoredBlank c = true)) :
      (l.take c s).2.Plain ∧ ((l.take c s).2.mode = .blank → isIgnoredBlank c = true) := by
    cases s with
    | more m =>
      obtain ⟨hplain, hready, hblank⟩ := hs m rfl
      exact ⟨⟨hplain, fun h => absurd h hready⟩, hblank⟩
    | last outcome => exact ⟨plain_between _, fun h => by cases h⟩
  unfold Lexer.advance
  split
  · rename_i s hs
    refine htake fun m hm => ?_
    subst hm
    by_cases hready : lexer.mode = .ready
    · rw [hready] at hs
      exact begin_plain hquote hsharp (Option.some.inj hs)
    · obtain ⟨hplain, hnext, hblank, -⟩ := step_plain h.mode hready hs
      exact ⟨hplain, hnext, hblank⟩
  · exact htake fun m hm => begin_plain hquote hsharp hm

theorem Plain.feed {lexer : Lexer} (h : lexer.Plain) {t : Text} (hquote : '"' ∉ t) (hsharp : '#' ∉ t) :
    (lexer.feed t).2.Plain ∧ (t ≠ [] → (lexer.feed t).2.mode = .blank → ∃ c ∈ t.getLast?, isIgnoredBlank c = true) := by
  induction t generalizing lexer with
  | nil => exact ⟨h, fun hne => absurd rfl hne⟩
  | cons c t ih =>
    simp only [List.mem_cons, not_or] at hquote hsharp
    obtain ⟨hnext, hblank⟩ := h.advance (Ne.symm hquote.1) (Ne.symm hsharp.1)
    obtain ⟨hlast, hrest⟩ := ih hnext hquote.2 hsharp.2
    refine ⟨hlast, fun _ hmode => ?_⟩
    cases t with
    | nil => exact ⟨c, rfl, hblank hmode⟩
    | cons d t => simpa [List.getLast?_cons_cons] using hrest (by simp) hmode

end Lexer

/-! ## Blanks at the end -/

/-- The fault is drawn by the end of the text alone. -/
def LexicalFault.IsEnding (cause : LexicalFault) : Prop := cause = .endInFloat ∨ cause = .unexpected '-'

namespace Lexer

/-- A blank that the language does not know is a fault. -/
theorem run_between_of_foreign {c : Char} (hc : isBlank c = true) (hforeign : isIgnoredBlank c = false) (offset : Nat)
    (t : Text) : (between offset).run (c :: t) =
      .fault (.unexpected c) offset :: (between (offset + c.utf8Size)).run t := by
  rw [run_cons]
  simp [advance, between, step, begin_of_isBlank hc, hforeign, take, Lexeme.ofOutcome]

/-- By induction on the blanks; those the language ignores make tokens and the others faults. -/
theorem IsBetween.run_of_isBlank {lexer : Lexer} (h : lexer.IsBetween) {t : Text}
    (ht : ∀ c ∈ t, isBlank c = true) : ∃ more : List Token, (∀ m ∈ more, m.kind = .blank) ∧
      tokensOf (lexer.run t) = more ++ [⟨.stop, "EOF", lexer.offset + t.size⟩] := by
  induction t generalizing lexer with
  | nil =>
    obtain ⟨passed, hpassed, hrun⟩ := h.run_eq (t := []) (by simp)
    refine ⟨passed, hpassed, ?_⟩
    rw [hrun, tokensOf_append, tokensOf_map_token]
    rfl
  | cons c t ih =>
    have hrest : ∀ d ∈ t, isBlank d = true := fun d hd => ht d (List.mem_cons_of_mem _ hd)
    cases hc : isIgnoredBlank c with
    | true =>
      obtain ⟨hnone, hblank⟩ := h.advance_of_blank hc
      obtain ⟨more, hmore, hrun⟩ := ih (.inl hblank) hrest
      refine ⟨more, hmore, ?_⟩
      rw [run_cons, hnone, List.nil_append, hrun, offset_advance, Text.size_cons, Nat.add_assoc]
    | false =>
      obtain ⟨passed, hpassed, hrun⟩ := h.run_eq (t := c :: t) (by simpa using hc)
      obtain ⟨more, hmore, hrun'⟩ := ih (isBetween_between (lexer.offset + c.utf8Size)) hrest
      refine ⟨passed ++ more, List.forall_mem_append.2 ⟨hpassed, hmore⟩, ?_⟩
      rw [hrun, tokensOf_append, tokensOf_map_token, run_between_of_foreign (ht c List.mem_cons_self) hc,
        tokensOf_fault, hrun', Text.size_cons, List.append_assoc, ← Nat.add_assoc]
      rfl

/-- What stands at hand either ends before the blank, or is cut off by it as by the end of the text. -/
theorem Plain.run_cons_of_isBlank {lexer : Lexer} (h : lexer.Plain) (hblank : lexer.mode ≠ .blank) {c : Char}
    (hc : isBlank c = true) (t : Text) :
    lexer.run (c :: t) = lexer.flush ++ (between lexer.offset).run (c :: t) ∨
      ∃ cause cause', lexer.flush = [.fault cause lexer.start] ∧ (cause = cause' ∨ cause.IsEnding) ∧
        lexer.run (c :: t) = .fault cause' lexer.start :: (between (lexer.offset + c.utf8Size)).run t := by
  have hends (hstep : blankStep c lexer.mode = none) :
      lexer.run (c :: t) = lexer.flush ++ (between lexer.offset).run (c :: t) :=
    run_of_step_eq_none (by rw [step_of_isBlank hc, hstep]) t
  have hcut {cause cause' : LexicalFault} (hfinish : finish lexer.mode = some (.error cause))
      (hstep : blankStep c lexer.mode = some (.last (.error cause'))) (hcause : cause = cause' ∨ cause.IsEnding) :
      ∃ cause cause', lexer.flush = [.fault cause lexer.start] ∧ (cause = cause' ∨ cause.IsEnding) ∧
        lexer.run (c :: t) = .fault cause' lexer.start :: (between (lexer.offset + c.utf8Size)).run t := by
    refine ⟨cause, cause', by simp [flush, hfinish, Lexeme.ofOutcome], hcause, ?_⟩
    rw [run_cons]
    simp [Lexer.advance, step_of_isBlank hc, hstep, take, Lexeme.ofOutcome]
  have hplain := h.mode
  have hready := h.ready
  cases hmode : lexer.mode with
  | ready =>
    refine .inl ?_
    rw [hready hmode]
    rfl
  | blank => exact absurd hmode hblank
  | name | dots | zero | int | fraction | exponentDigits => exact .inl (hends (by rw [hmode]; rfl))
  | dot => exact .inr (hcut (by rw [hmode]; rfl) (by rw [hmode]; rfl) (.inl rfl))
  | minus => exact .inr (hcut (by rw [hmode]; rfl) (by rw [hmode]; rfl) (.inr (.inr rfl)))
  | point | exponent | exponentSign =>
    exact .inr (hcut (by rw [hmode]; rfl) (by rw [hmode]; rfl) (.inr (.inl rfl)))
  | _ =>
    rw [hmode] at hplain
    cases hplain

/-- What the end of the text brings, and what blanks bring instead. -/
theorem Plain.run_of_isBlank {lexer : Lexer} (h : lexer.Plain) (hblank : lexer.mode ≠ .blank) {t : Text}
    (hne : t ≠ []) (ht : ∀ c ∈ t, isBlank c = true) :
    ∃ (more : List Token) (cut late : List (LexicalFault × Nat)),
      tokensOf (lexer.run t) =
        tokensOf lexer.flush ++ (more ++ [⟨.stop, "EOF", lexer.offset + t.size⟩]) ∧
      faultsOf (lexer.run t) = cut ++ late ∧
      List.Forall₂ (fun f f' => f.2 = f'.2 ∧ (f.1 = f'.1 ∨ f.1.IsEnding)) (faultsOf lexer.flush) cut ∧
      (∀ m ∈ more, m.kind = .blank ∧ lexer.offset ≤ m.offset) ∧ ∀ f ∈ late, lexer.offset ≤ f.2 := by
  obtain ⟨c, t, rfl⟩ := List.exists_cons_of_ne_nil hne
  have hlate {n : Nat} (hn : lexer.offset ≤ n) {w : Text} {l : Lexeme} (hl : l ∈ (between n).run w) :
      lexer.offset ≤ l.offset := Nat.le_trans hn (le_offset_of_mem_run (Nat.le_refl _) hl)
  have hfault {n : Nat} (hn : lexer.offset ≤ n) {w : Text} : ∀ f ∈ faultsOf ((between n).run w), lexer.offset ≤ f.2 :=
    fun f hf => hlate hn (mem_faultsOf.1 hf)
  have htoken {n : Nat} (hn : lexer.offset ≤ n) {w : Text} {more rest : List Token}
      (hmore : ∀ m ∈ more, m.kind = .blank) (hrun : tokensOf ((between n).run w) = more ++ rest) :
      ∀ m ∈ more, m.kind = .blank ∧ lexer.offset ≤ m.offset := fun m hm =>
    ⟨hmore m hm, hlate hn (mem_tokensOf.1 (hrun ▸ List.mem_append_left _ hm))⟩
  rcases h.run_cons_of_isBlank hblank (ht c List.mem_cons_self) t with hrun | ⟨cause, cause', hflush, hcause, hrun⟩
  · obtain ⟨more, hmore, hblanks⟩ := (isBetween_between lexer.offset).run_of_isBlank ht
    refine ⟨more, faultsOf lexer.flush, _, ?_, by rw [hrun, faultsOf_append], ?_,
      htoken (Nat.le_refl _) hmore hblanks, hfault (Nat.le_refl _)⟩
    · rw [hrun, tokensOf_append, hblanks]
      rfl
    · exact List.forall₂_same.2 fun _ _ => ⟨rfl, .inl rfl⟩
  · have hn : lexer.offset ≤ lexer.offset + c.utf8Size := Nat.le_add_right _ _
    obtain ⟨more, hmore, hblanks⟩ := (isBetween_between (lexer.offset + c.utf8Size)).run_of_isBlank
      (t := t) fun d hd => ht d (List.mem_cons_of_mem _ hd)
    refine ⟨more, [(cause', lexer.start)], _, ?_, by rw [hrun, faultsOf_fault]; rfl, ?_,
      htoken hn hmore hblanks, hfault hn⟩
    · rw [hrun, hflush, tokensOf_fault, hblanks, Text.size_cons, ← Nat.add_assoc]
      rfl
    · rw [hflush]
      exact .cons ⟨rfl, hcause⟩ .nil

end Lexer

/-! ## Blanks at both ends -/

/-- All complaints are moved by `n` bytes; of those at `stop` or behind it nothing is known but that they stay
behind it. -/
def Likeness.moved (n stop : Nat) : Likeness where
  strings := Eq
  complaints p p' := p.1 = p'.1 ∧ p'.2 = p.2 + n ∨ stop ≤ p.2 ∧ stop + n ≤ p'.2

section Moved
variable {n stop : Nat}

theorem Likeness.token_moved {t t' : Graphql.Token} (hkind : t.kind = t'.kind) (htext : t.text = t'.text)
    (h : t'.offset = t.offset + n ∨ stop ≤ t.offset ∧ stop + n ≤ t'.offset) : (moved n stop).Token t t' where
  kind := hkind
  text _ _ := htext
  spelling _ := .inl htext
  string _ := htext
  complaint _ := h.imp_left fun hoffset => ⟨rfl, hoffset⟩
  instead _ := h.imp_left fun hoffset => ⟨by rw [htext], hoffset⟩

/-- The token, moved by `n` bytes. -/
abbrev Token.shift (n : Nat) (t : Token) : Token := { t with offset := t.offset + n }

theorem Likeness.tokens_moved_append (ts : List Graphql.Token) {rest rest' : List Graphql.Token}
    (h : (moved n stop).Tokens rest rest') :
    (moved n stop).Tokens (ts ++ rest) (ts.map (Token.shift n) ++ rest') := by
  induction ts with
  | nil => exact h
  | cons t ts ih => exact .cons (token_moved rfl rfl (.inl rfl)) ih

/-- The end of the text, and blanks in its place that are moved by `n` bytes. -/
theorem Lexer.Plain.tokens_of_isBlank {lexer : Lexer} (h : lexer.Plain) {trail : Text}
    (htrail : ∀ c ∈ trail, isBlank c = true) (hblank : trail ≠ [] → lexer.mode ≠ .blank)
    (hstop : trail ≠ [] → stop ≤ lexer.offset) :
    (Likeness.moved n stop).Tokens (tokensOf (lexer.run [])) ((tokensOf (lexer.run trail)).map (Token.shift n)) ∧
      ∃ cut late, faultsOf (lexer.run trail) = cut ++ late ∧
        List.Forall₂ (fun f f' => f.2 = f'.2 ∧ (f.1 = f'.1 ∨ trail ≠ [] ∧ f.1.IsEnding)) (faultsOf (lexer.run [])) cut ∧
        ∀ f ∈ late, stop ≤ f.2 := by
  by_cases hne : trail = []
  · subst hne
    have hstop : (Likeness.moved n stop).Token ⟨.stop, "EOF", lexer.offset⟩ ⟨.stop, "EOF", lexer.offset + n⟩ :=
      Likeness.token_moved rfl rfl (.inl rfl)
    have htokens : (Likeness.moved n stop).Tokens ([] ++ [⟨.stop, "EOF", lexer.offset⟩])
        ([] ++ [⟨.stop, "EOF", lexer.offset + n⟩]) :=
      .stop hstop rfl (by simp) (by simp) (by simpa using hstop.instead .rightBracket)
    refine ⟨?_, faultsOf (lexer.run []), [], by simp, List.forall₂_same.2 fun _ _ => ⟨rfl, .inl rfl⟩, by simp⟩
    simpa [run_nil] using Likeness.tokens_moved_append (tokensOf lexer.flush) htokens
  · obtain ⟨more, cut, late, hrun, hfaults, hcut, hmore, hlate⟩ := h.run_of_isBlank (hblank hne) hne htrail
    have hoffset := hstop hne
    have hbehind : stop + n ≤ lexer.offset + trail.size + n :=
      Nat.add_le_add_right (Nat.le_add_right_of_le hoffset) n
    have htokens : (Likeness.moved n stop).Tokens ([] ++ [⟨.stop, "EOF", lexer.offset⟩])
        (more.map (Token.shift n) ++ [⟨.stop, "EOF", lexer.offset + trail.size + n⟩]) := by
      refine .stop (Likeness.token_moved rfl rfl (.inr ⟨hoffset, hbehind⟩)) rfl (by simp) ?_ ?_
      · rintro m hm
        obtain ⟨b, hb, rfl⟩ := List.mem_map.1 hm
        exact .inl (hmore b hb).1
      · rintro _ ⟨⟩ m hm
        rcases List.mem_append.1 (List.mem_of_mem_head? hm) with hm | hm
        · obtain ⟨b, hb, rfl⟩ := List.mem_map.1 hm
          exact .inr ⟨hoffset, Nat.add_le_add_right (Nat.le_trans hoffset (hmore b hb).2) n⟩
        · rw [List.mem_singleton.1 hm]
          exact .inr ⟨hoffset, hbehind⟩
    refine ⟨?_, cut, late, hfaults, ?_, fun f hf => Nat.le_trans hoffset (hlate f hf)⟩
    rotate_left
    · rw [run_nil, faultsOf_append, faultsOf_token, faultsOf_nil, List.append_nil]
      exact hcut.imp fun _ _ hf => ⟨hf.1, hf.2.imp_right fun h => ⟨hne, h⟩⟩
    rw [run_nil, tokensOf_append, hrun, List.map_append, List.map_append]
    exact Likeness.tokens_moved_append (tokensOf lexer.flush) htokens

end Moved

/-- Blanks in front move the words and faults behind them. -/
theorem words_of_blanks_before {lead : Text} (hlead : ∀ c ∈ lead, isIgnoredBlank c = true) (t : Text) :
    wordsOf (tokensOf (lexemes (lead ++ t))) = wordsOf ((tokensOf (lexemes t)).map (Token.shift lead.size)) ∧
      faultsOf (lexemes (lead ++ t)) = (faultsOf (lexemes t)).map fun f => (f.1, f.2 + lead.size) := by
  have hshift : Lexer.between lead.size = (Lexer.between 0).shift lead.size := by
    simp [Lexer.between, Lexer.shift]
  obtain ⟨hwords, hfaults⟩ := Lexer.words_of_blanks_before hlead t
  rw [hwords, hfaults, hshift, Lexer.run_shift, tokensOf_map_shift, faultsOf_map_shift]
  exact ⟨rfl, rfl⟩

/-- Behind a text that ends with no blank the lexer does not stand in blanks. -/
theorem mode_ne_blank_of_getLast? {text : Text} (hquote : '"' ∉ text) (hsharp : '#' ∉ text)
    (hend : ∀ c ∈ text.getLast?, isIgnoredBlank c = false) : ((Lexer.between 0).feed text).2.mode ≠ .blank := by
  intro hmode
  by_cases htext : text = []
  · rw [htext] at hmode
    cases hmode
  · obtain ⟨c, hc, hignored⟩ := ((Lexer.plain_between 0).feed hquote hsharp).2 htext hmode
    rw [hend c hc] at hignored
    cases hignored

/-- Reading a text between blanks is reading it alone, but for what its end draws. -/
theorem Likeness.words_of_blanks_around {lead text trail : Text} {stop : Nat}
    (hlead : ∀ c ∈ lead, isIgnoredBlank c = true) (htrail : ∀ c ∈ trail, isBlank c = true) (hquote : '"' ∉ text) (hsharp : '#' ∉ text)
    (hend : trail ≠ [] → ∀ c ∈ text.getLast?, isIgnoredBlank c = false) (hstop : trail ≠ [] → stop ≤ text.size) :
    (moved lead.size stop).Words (wordsOf (tokensOf (lexemes text)))
        (wordsOf (tokensOf (lexemes (lead ++ (text ++ trail))))) ∧
      ∃ cut late, faultsOf (lexemes (lead ++ (text ++ trail))) = cut ++ late ∧
        List.Forall₂ (fun f f' => f'.2 = f.2 + lead.size ∧ (f.1 = f'.1 ∨ trail ≠ [] ∧ f.1.IsEnding))
          (faultsOf (lexemes text)) cut ∧
        ∀ f ∈ late, stop + lead.size ≤ f.2 := by
  have hmoved := words_of_blanks_before hlead (text ++ trail)
  have hoffset : ((Lexer.between 0).feed text).2.offset = text.size := by
    rw [Lexer.offset_feed]
    exact Nat.zero_add _
  obtain ⟨htokens, cut, late, hfaults, hcut, hlate⟩ :=
    ((Lexer.plain_between 0).feed hquote hsharp).1.tokens_of_isBlank (n := lead.size) htrail
      (fun hne => mode_ne_blank_of_getLast? hquote hsharp (hend hne)) (by rwa [hoffset])
  have hwhole : lexemes (text ++ trail) =
      ((Lexer.between 0).feed text).1 ++ ((Lexer.between 0).feed text).2.run trail := Lexer.run_append ..
  have halone : lexemes text = ((Lexer.between 0).feed text).1 ++ ((Lexer.between 0).feed text).2.run [] :=
    Lexer.run_eq_feed ..
  rw [hmoved.1, hmoved.2, hwhole, halone]
  simp only [tokensOf_append, faultsOf_append, List.map_append, hfaults]
  refine ⟨(tokens_moved_append _ htokens).words, _, _, (List.append_assoc ..).symm, ?_, ?_⟩
  · refine List.rel_append ?_ ?_
    · exact List.forall₂_map_right_iff.2 (List.forall₂_same.2 fun _ _ => ⟨rfl, .inl rfl⟩)
    · exact List.forall₂_map_right_iff.2 (hcut.imp fun _ _ hf => ⟨by rw [hf.1], hf.2⟩)
  · intro f hf
    obtain ⟨g, hg, rfl⟩ := List.mem_map.1 hf
    exact Nat.add_le_add_right (hlate g hg) _

end GraphqlBuild.Graphql
