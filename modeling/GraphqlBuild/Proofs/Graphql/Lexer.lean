import GraphqlBuild.Proofs.Graphql.Words
import GraphqlBuild.Proofs.Text.Cut
/-!
# Runs of the lexer

A text is read piece by piece (`Lexer.run_append`), from any offset in the same way (`Lexer.run_shift`).
What blanks the lexer has just passed makes no difference to the words and faults that follow
(`Lexer.IsBetween.words_run`), and no lexeme lies before the place where reading began
(`Lexer.le_offset_of_mem_run`).
-/

namespace GraphqlBuild.Graphql

@[simp] theorem tokensOf_nil : tokensOf [] = [] := rfl

@[simp] theorem faultsOf_nil : faultsOf [] = [] := rfl

@[simp] theorem tokensOf_append (ls ms : List Lexeme) : tokensOf (ls ++ ms) = tokensOf ls ++ tokensOf ms :=
  List.filterMap_append

@[simp] theorem faultsOf_append (ls ms : List Lexeme) : faultsOf (ls ++ ms) = faultsOf ls ++ faultsOf ms :=
  List.filterMap_append

@[simp] theorem tokensOf_token (t : Token) (ls : List Lexeme) : tokensOf (.token t :: ls) = t :: tokensOf ls := rfl

@[simp] theorem faultsOf_token (t : Token) (ls : List Lexeme) : faultsOf (.token t :: ls) = faultsOf ls := rfl

@[simp] theorem tokensOf_fault (cause : LexicalFault) (offset : Nat) (ls : List Lexeme) :
    tokensOf (.fault cause offset :: ls) = tokensOf ls := rfl

@[simp] theorem faultsOf_fault (cause : LexicalFault) (offset : Nat) (ls : List Lexeme) :
    faultsOf (.fault cause offset :: ls) = (cause, offset) :: faultsOf ls := rfl

theorem mem_tokensOf {t : Token} {ls : List Lexeme} : t ∈ tokensOf ls ↔ .token t ∈ ls := by
  induction ls with
  | nil => simp
  | cons l ls ih => cases l <;> simp [ih]

theorem mem_faultsOf {f : LexicalFault × Nat} {ls : List Lexeme} : f ∈ faultsOf ls ↔ .fault f.1 f.2 ∈ ls := by
  induction ls with
  | nil => simp
  | cons l ls ih => cases l <;> simp [ih, Prod.ext_iff]

namespace Lexer

/-! ## Pieces of a text -/

/-- The lexemes that end within the text, and where the lexer then stands. -/
def feed (lexer : Lexer) : Text → List Lexeme × Lexer
  | [] => ([], lexer)
  | c :: t =>
    let (lexemes, next) := lexer.advance c
    let (more, last) := feed next t
    (lexemes ++ more, last)

theorem run_nil (lexer : Lexer) : lexer.run [] = lexer.flush ++ [.token ⟨.stop, "EOF", lexer.offset⟩] := rfl

theorem run_cons (lexer : Lexer) (c : Char) (t : Text) :
    lexer.run (c :: t) = (lexer.advance c).1 ++ (lexer.advance c).2.run t := rfl

theorem feed_cons (lexer : Lexer) (c : Char) (t : Text) :
    lexer.feed (c :: t) =
      ((lexer.advance c).1 ++ ((lexer.advance c).2.feed t).1, ((lexer.advance c).2.feed t).2) := rfl

theorem run_append (lexer : Lexer) (s t : Text) : lexer.run (s ++ t) = (lexer.feed s).1 ++ (lexer.feed s).2.run t := by
  induction s generalizing lexer with
  | nil => rfl
  | cons c s ih => rw [List.cons_append, run_cons, feed_cons, ih, List.append_assoc]

theorem run_eq_feed (lexer : Lexer) (t : Text) : lexer.run t = (lexer.feed t).1 ++ (lexer.feed t).2.run [] := by
  rw [← run_append, List.append_nil]

@[simp] theorem offset_take (lexer : Lexer) (c : Char) (s : Step) :
    (lexer.take c s).2.offset = lexer.offset + c.utf8Size := by
  cases s <;> rfl

theorem offset_advance (lexer : Lexer) (c : Char) : (lexer.advance c).2.offset = lexer.offset + c.utf8Size := by
  unfold advance
  split
  · simp
  · simp [between]

theorem offset_feed (lexer : Lexer) (t : Text) : (lexer.feed t).2.offset = lexer.offset + t.size := by
  induction t generalizing lexer with
  | nil => rfl
  | cons c t ih => rw [feed_cons, ih, offset_advance, Text.size_cons, Nat.add_assoc]

/-- A character that does not belong to the token at hand is read as if nothing were at hand. -/
theorem advance_of_step_eq_none {lexer : Lexer} {c : Char} (h : step lexer.mode c = none) :
    lexer.advance c = (lexer.flush ++ ((between lexer.offset).advance c).1, ((between lexer.offset).advance c).2) := by
  unfold advance
  rw [h]
  rfl

theorem run_of_step_eq_none {lexer : Lexer} {c : Char} (h : step lexer.mode c = none) (t : Text) :
    lexer.run (c :: t) = lexer.flush ++ (between lexer.offset).run (c :: t) := by
  rw [run_cons, run_cons, advance_of_step_eq_none h, List.append_assoc]

/-! ## Another place -/

/-- The lexer, everything at hand moved by `n` bytes. -/
def shift (n : Nat) (lexer : Lexer) : Lexer := { lexer with start := lexer.start + n, offset := lexer.offset + n }

end Lexer

/-- The lexeme, moved by `n` bytes. -/
def Lexeme.shift (n : Nat) : Lexeme → Lexeme
  | token t => token { t with offset := t.offset + n }
  | fault cause offset => fault cause (offset + n)

theorem tokensOf_map_shift (n : Nat) (ls : List Lexeme) :
    tokensOf (ls.map (Lexeme.shift n)) = (tokensOf ls).map fun t => { t with offset := t.offset + n } := by
  induction ls with
  | nil => rfl
  | cons l ls ih => cases l <;> simp [Lexeme.shift, ih]

theorem faultsOf_map_shift (n : Nat) (ls : List Lexeme) :
    faultsOf (ls.map (Lexeme.shift n)) = (faultsOf ls).map fun f => (f.1, f.2 + n) := by
  induction ls with
  | nil => rfl
  | cons l ls ih => cases l <;> simp [Lexeme.shift, ih]

theorem Lexeme.shift_ofOutcome (n : Nat) (text : Text) (offset : Nat) (outcome : Outcome) :
    (Lexeme.ofOutcome text offset outcome).shift n = .ofOutcome text (offset + n) outcome := by
  cases outcome <;> rfl

namespace Lexer

theorem flush_shift (n : Nat) (lexer : Lexer) : (lexer.shift n).flush = lexer.flush.map (Lexeme.shift n) := by
  unfold flush
  simp only [shift]
  split
  · rfl
  · simp [Lexeme.shift_ofOutcome]

theorem take_shift (n : Nat) (lexer : Lexer) (c : Char) (s : Step) :
    (lexer.shift n).take c s = ((lexer.take c s).1.map (Lexeme.shift n), (lexer.take c s).2.shift n) := by
  cases s with
  | more mode => simp [take, shift, Nat.add_right_comm]
  | last outcome => simp [take, shift, between, Lexeme.shift_ofOutcome, Nat.add_right_comm]

theorem advance_shift (n : Nat) (lexer : Lexer) (c : Char) :
    (lexer.shift n).advance c = ((lexer.advance c).1.map (Lexeme.shift n), (lexer.advance c).2.shift n) := by
  have hbetween : between (lexer.shift n).offset = (between lexer.offset).shift n := rfl
  have hmode : (lexer.shift n).mode = lexer.mode := rfl
  unfold advance
  rw [hmode]
  split
  · exact take_shift n lexer c _
  · simp only [hbetween, take_shift, flush_shift, List.map_append]

theorem run_shift (n : Nat) (lexer : Lexer) (t : Text) :
    (lexer.shift n).run t = (lexer.run t).map (Lexeme.shift n) := by
  induction t generalizing lexer with
  | nil =>
    rw [run_nil, run_nil, flush_shift, List.map_append]
    rfl
  | cons c t ih => rw [run_cons, run_cons, advance_shift, ih, List.map_append]

/-! ## Blanks that were passed -/

/-- The lexer stands behind blanks or between two tokens. -/
def IsBetween (lexer : Lexer) : Prop := lexer.mode = .blank ∨ lexer = between lexer.offset

theorem isBetween_between (offset : Nat) : (between offset).IsBetween := .inr rfl

theorem IsBetween.advance_of_blank {lexer : Lexer} (h : lexer.IsBetween) {c : Char} (hc : isIgnoredBlank c = true) :
    (lexer.advance c).1 = [] ∧ (lexer.advance c).2.mode = .blank := by
  rcases h with h | h
  · simp [advance, h, step, hc, take]
  · rw [h]
    simp [advance, between, step, begin, hc, take]

/-- Blanks passed are a token in front of what comes when nothing was passed. -/
theorem IsBetween.run_eq {lexer : Lexer} (h : lexer.IsBetween) {t : Text}
    (ht : ∀ c ∈ t.head?, isIgnoredBlank c = false) :
    ∃ passed : List Token, (∀ b ∈ passed, b.kind = .blank) ∧
      lexer.run t = passed.map .token ++ (between lexer.offset).run t := by
  rcases h with h | h
  · refine ⟨[⟨.blank, lexer.taken.reverse, lexer.start⟩], by simp, ?_⟩
    have hflush : lexer.flush = [.token ⟨.blank, lexer.taken.reverse, lexer.start⟩] := by
      simp [flush, h, finish, Lexeme.ofOutcome]
    cases t with
    | nil =>
      rw [run_nil, hflush]
      rfl
    | cons c t =>
      have hstep : step lexer.mode c = none := by simp [h, step, ht c rfl]
      rw [run_of_step_eq_none hstep, hflush]
      rfl
  · refine ⟨[], by simp, ?_⟩
    rw [h]
    rfl

theorem IsBetween.feed_of_blanks {lexer : Lexer} (h : lexer.IsBetween) {t : Text}
    (ht : ∀ c ∈ t, isIgnoredBlank c = true) : (lexer.feed t).1 = [] ∧ (lexer.feed t).2.IsBetween := by
  induction t generalizing lexer with
  | nil => exact ⟨rfl, h⟩
  | cons c t ih =>
    obtain ⟨hnone, hblank⟩ := h.advance_of_blank (ht c List.mem_cons_self)
    obtain ⟨hrest, hbetween⟩ := ih (.inl hblank) fun d hd => ht d (List.mem_cons_of_mem _ hd)
    rw [feed_cons, hnone, hrest]
    exact ⟨rfl, hbetween⟩

theorem isIgnored_of_blanks {passed : List Token} (h : ∀ b ∈ passed, b.kind = .blank) :
    ∀ b ∈ passed, b.kind.isIgnored = true := by
  intro b hb
  rw [h b hb]
  rfl

theorem tokensOf_map_token (ts : List Token) : tokensOf (ts.map .token) = ts := by
  induction ts with
  | nil => rfl
  | cons t ts ih => rw [List.map_cons, tokensOf_token, ih]

theorem faultsOf_map_token (ts : List Token) : faultsOf (ts.map .token) = [] := by
  induction ts with
  | nil => rfl
  | cons t ts ih => rw [List.map_cons, faultsOf_token, ih]

/-- The words and faults behind blanks, wherever those began. -/
theorem IsBetween.words_run {lexer : Lexer} (h : lexer.IsBetween) (t : Text) :
    wordsOf (tokensOf (lexer.run t)) = wordsOf (tokensOf ((between lexer.offset).run t)) ∧
      faultsOf (lexer.run t) = faultsOf ((between lexer.offset).run t) := by
  have hread {l : Lexer} (hl : l.IsBetween) (hoffset : l.offset = lexer.offset) :
      ∃ passed : List Token, (∀ b ∈ passed, b.kind = .blank) ∧ l.run t = passed.map .token ++
        (between (lexer.offset + Text.size (t.takeWhile isIgnoredBlank))).run (t.dropWhile isIgnoredBlank) := by
    obtain ⟨hnone, hbetween⟩ := hl.feed_of_blanks fun c => List.all_eq_true.1 List.all_takeWhile c
    obtain ⟨passed, hpassed, hrun⟩ := hbetween.run_eq (t := t.dropWhile isIgnoredBlank) fun c hc => by
      have := List.head?_dropWhile_not isIgnoredBlank t
      simp_all
    refine ⟨passed, hpassed, ?_⟩
    rw [offset_feed, hoffset] at hrun
    rw [← hrun]
    nth_rewrite 1 [← List.takeWhile_append_dropWhile (p := isIgnoredBlank) (l := t)]
    rw [run_append, hnone, List.nil_append]
  obtain ⟨passed, hpassed, hrun⟩ := hread h rfl
  obtain ⟨passed', hpassed', hrun'⟩ := hread (isBetween_between lexer.offset) rfl
  rw [hrun, hrun']
  simp only [tokensOf_append, faultsOf_append, tokensOf_map_token, faultsOf_map_token,
    wordsOf_append_of_ignored (isIgnored_of_blanks hpassed),
    wordsOf_append_of_ignored (isIgnored_of_blanks hpassed'), and_self]

theorem words_of_blanks_before {lead : Text} (hlead : ∀ c ∈ lead, isIgnoredBlank c = true) (t : Text) :
    wordsOf (tokensOf (lexemes (lead ++ t))) = wordsOf (tokensOf ((between lead.size).run t)) ∧
      faultsOf (lexemes (lead ++ t)) = faultsOf ((between lead.size).run t) := by
  obtain ⟨hnone, hbetween⟩ := (isBetween_between 0).feed_of_blanks hlead
  have hrun : lexemes (lead ++ t) = ((between 0).feed lead).2.run t := by
    rw [lexemes, run_append]
    exact congrArg (· ++ _) hnone
  have hoffset : ((between 0).feed lead).2.offset = lead.size := by
    rw [offset_feed]
    exact Nat.zero_add _
  rw [hrun, ← hoffset]
  exact hbetween.words_run t

end Lexer

/-! ## Offsets -/

/-- The offset at which the lexeme begins. -/
def Lexeme.offset : Lexeme → Nat
  | token t => t.offset
  | fault _ offset => offset

theorem Lexeme.offset_ofOutcome (text : Text) (offset : Nat) (outcome : Outcome) :
    (Lexeme.ofOutcome text offset outcome).offset = offset := by
  cases outcome <;> rfl

namespace Lexer

theorem offset_of_mem_flush {lexer : Lexer} {l : Lexeme} (h : l ∈ lexer.flush) : l.offset = lexer.start := by
  unfold flush at h
  split at h
  · cases h
  · rw [List.mem_singleton.1 h, Lexeme.offset_ofOutcome]

/-- What a character brings begins where the lexer began, or right before the character. -/
theorem le_of_advance {lexer : Lexer} (h : lexer.start ≤ lexer.offset) (c : Char) :
    (∀ l ∈ (lexer.advance c).1, lexer.start ≤ l.offset) ∧ lexer.start ≤ (lexer.advance c).2.start ∧
      (lexer.advance c).2.start ≤ (lexer.advance c).2.offset := by
  have htake {l : Lexer} (hl : l.start ≤ l.offset) (s : Step) :
      (∀ m ∈ (l.take c s).1, m.offset = l.start) ∧ l.start ≤ (l.take c s).2.start ∧
        (l.take c s).2.start ≤ (l.take c s).2.offset := by
    cases s with
    | more mode => exact ⟨by simp [take], Nat.le_refl _, Nat.le_add_right_of_le hl⟩
    | last outcome => simp [take, between, Lexeme.offset_ofOutcome, Nat.le_add_right_of_le hl]
  unfold advance
  split
  · obtain ⟨hlexemes, hstart, hoffset⟩ := htake h _
    exact ⟨fun l hl => Nat.le_of_eq (hlexemes l hl).symm, hstart, hoffset⟩
  · obtain ⟨hlexemes, hstart, hoffset⟩ := htake (l := between lexer.offset) (Nat.le_refl _) (begin c)
    refine ⟨fun l hl => ?_, Nat.le_trans h hstart, hoffset⟩
    rcases List.mem_append.1 hl with hl | hl
    · exact Nat.le_of_eq (offset_of_mem_flush hl).symm
    · rw [hlexemes l hl]
      exact h

theorem le_offset_of_mem_run {lexer : Lexer} (h : lexer.start ≤ lexer.offset) {t : Text} {l : Lexeme}
    (hl : l ∈ lexer.run t) : lexer.start ≤ l.offset := by
  induction t generalizing lexer with
  | nil =>
    rcases List.mem_append.1 hl with hl | hl
    · exact Nat.le_of_eq (offset_of_mem_flush hl).symm
    · rw [List.mem_singleton.1 hl]
      exact h
  | cons c t ih =>
    obtain ⟨hlexemes, hstart, hoffset⟩ := le_of_advance h c
    rcases List.mem_append.1 hl with hl | hl
    · exact hlexemes l hl
    · exact Nat.le_trans hstart (ih hoffset hl)

end Lexer

end GraphqlBuild.Graphql
