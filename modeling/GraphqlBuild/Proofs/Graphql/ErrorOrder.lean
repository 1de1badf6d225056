import GraphqlBuild.Proofs.Graphql.Place
import GraphqlBuild.Proofs.Text.Offset
import Mathlib.Data.List.Pairwise
/-!
# Errors in reading order

Lexer and grammar report their problems while the text is read, each in its own order; how the two take turns does
not show, for no fault and no complaint share an offset (`offset_ne_of_mem`). The errors of a text are these
problems sorted by offset, and by line and column all the same, with ties left as they were reported
(`lineCol_ofText_orders_errors`).
-/

namespace GraphqlBuild.Graphql

/-- Line and column of an error, as reported. -/
def SyntaxError.place (e : SyntaxError) : Nat × Nat := (e.line, e.column)

/-- The problem was found by the lexer. -/
def Problem.isLexical : Problem → Bool
  | lexical _ => true
  | grammatical _ => false

/-- The problems of a text as they may be reported: lexer and grammar take turns in some way, and each reports its
own problems in the order in which it finds them. -/
def Reports (t : Text) (ps : List (Problem × Nat)) : Prop :=
  ∀ lexical, ps.filter (·.1.isLexical == lexical) = (problems t).filter (·.1.isLexical == lexical)

/-! ## Offsets of lexemes -/

namespace Lexer
variable {lexer : Lexer}

/-- The token at hand, if there is one, has begun before the offset reached. -/
structure Begins (lexer : Lexer) : Prop where
  le : lexer.start ≤ lexer.offset
  lt : lexer.mode ≠ .ready → lexer.start < lexer.offset

theorem begins_between (offset : Nat) : (between offset).Begins := ⟨Nat.le_refl _, fun h => absurd rfl h⟩

theorem Begins.lt_of_mem_flush (h : lexer.Begins) {l : Lexeme} (hl : l ∈ lexer.flush) : l.offset < lexer.offset := by
  rw [offset_of_mem_flush hl]
  refine h.lt fun hready => ?_
  rw [flush, hready] at hl
  cases hl

theorem Begins.take (h : lexer.Begins) (c : Char) (s : Step) : (lexer.take c s).2.Begins ∧
    ∀ l ∈ (lexer.take c s).1, l.offset = lexer.start ∧ l.offset < (lexer.take c s).2.start := by
  have hc := Char.utf8Size_pos c
  have hle := h.le
  cases s with
  | more mode =>
    refine ⟨⟨Nat.le_add_right_of_le hle, fun _ => ?_⟩, by simp [Lexer.take]⟩
    show lexer.start < lexer.offset + c.utf8Size
    omega
  | last outcome =>
    refine ⟨begins_between _, fun l hl => ?_⟩
    rw [List.mem_singleton.1 hl, Lexeme.offset_ofOutcome]
    refine ⟨rfl, ?_⟩
    show lexer.start < lexer.offset + c.utf8Size
    omega

/-- The lexemes that a character brings begin one behind the other, and in front of the token then at hand. -/
theorem Begins.advance (h : lexer.Begins) (c : Char) : (lexer.advance c).2.Begins ∧
    (lexer.advance c).1.Pairwise (·.offset < ·.offset) ∧
    ∀ l ∈ (lexer.advance c).1, l.offset < (lexer.advance c).2.start := by
  have hone {lexer : Lexer} (s : Step) : (lexer.take c s).1.Pairwise (·.offset < ·.offset) := by
    cases s <;> simp [Lexer.take]
  unfold Lexer.advance
  split
  · rename_i s hs
    obtain ⟨hnext, hlexemes⟩ := h.take c s
    exact ⟨hnext, hone s, fun l hl => (hlexemes l hl).2⟩
  · -- the token at hand ends in front of the character, and another one begins with it
    obtain ⟨hnext, hlexemes⟩ := (begins_between lexer.offset).take c (begin c)
    have hstart : lexer.offset ≤ ((between lexer.offset).take c (begin c)).2.start := by
      cases begin c with
      | more mode => exact Nat.le_refl _
      | last outcome => exact Nat.le_add_right _ _
    have hflush {l : Lexeme} (hl : l ∈ lexer.flush) := h.lt_of_mem_flush hl
    refine ⟨hnext, List.pairwise_append.2 ⟨?_, hone (begin c), fun l hl l' hl' => ?_⟩, fun l hl => ?_⟩
    · unfold Lexer.flush
      split <;> simp
    · rw [(hlexemes l' hl').1]
      exact hflush hl
    · rcases List.mem_append.1 hl with hl | hl
      · exact Nat.lt_of_lt_of_le (hflush hl) hstart
      · exact (hlexemes l hl).2

theorem Begins.pairwise_run (h : lexer.Begins) (t : Text) : (lexer.run t).Pairwise (·.offset < ·.offset) := by
  induction t generalizing lexer with
  | nil =>
    rw [run_nil]
    refine List.pairwise_append.2 ⟨?_, List.pairwise_singleton _ _, fun l hl l' hl' => ?_⟩
    · unfold Lexer.flush
      split <;> simp
    · rw [List.mem_singleton.1 hl']
      exact h.lt_of_mem_flush hl
  | cons c t ih =>
    obtain ⟨hnext, hpairwise, hlexemes⟩ := h.advance c
    rw [run_cons]
    refine List.pairwise_append.2 ⟨hpairwise, ih hnext, fun l hl l' hl' => ?_⟩
    exact Nat.lt_of_lt_of_le (hlexemes l hl) (le_offset_of_mem_run hnext.le hl')

end Lexer

theorem pairwise_lexemes (t : Text) : (lexemes t).Pairwise (·.offset < ·.offset) :=
  (Lexer.begins_between 0).pairwise_run t

/-- A fault does not begin where a token begins. -/
theorem offset_ne_of_mem {t : Text} {u : Token} {f : LexicalFault × Nat} (hu : u ∈ tokensOf (lexemes t))
    (hf : f ∈ faultsOf (lexemes t)) : u.offset ≠ f.2 := by
  have hdistinct : (lexemes t).Pairwise (·.offset ≠ ·.offset) := (pairwise_lexemes t).imp Nat.ne_of_lt
  have : Std.Symm fun l l' : Lexeme => l.offset ≠ l'.offset := ⟨fun _ _ => Ne.symm⟩
  have hne : Lexeme.token u ≠ .fault f.1 f.2 := by simp
  exact hdistinct.forall (mem_tokensOf.1 hu) (mem_faultsOf.1 hf) hne

/-- Lexer and grammar never report a problem at the same offset. -/
theorem isLexical_eq_of_offset_eq {t : Text} {p q : Problem × Nat} (hp : p ∈ problems t) (hq : q ∈ problems t)
    (h : p.2 = q.2) : p.1.isLexical = q.1.isLexical := by
  have hapart {f : LexicalFault × Nat} (hf : f ∈ faultsOf (lexemes t)) :=
    offset_of_mem_complaints (P := (· ≠ f.2)) fun u hu => offset_ne_of_mem hu hf
  rcases List.mem_append.1 hp with hp | hp <;> rcases List.mem_append.1 hq with hq | hq
  all_goals
    obtain ⟨x, hx, rfl⟩ := List.mem_map.1 hp
    obtain ⟨y, hy, rfl⟩ := List.mem_map.1 hq
  · rfl
  · exact absurd h.symm (hapart hx y (List.mem_reverse.1 hy))
  · exact absurd h (hapart hy x (List.mem_reverse.1 hx))
  · rfl

/-! ## Sorting by offset -/

section
variable {p : Problem × Nat} {ps : List (Problem × Nat)}

theorem mem_insertByOffset {q : Problem × Nat} : q ∈ insertByOffset p ps ↔ q = p ∨ q ∈ ps := by
  induction ps with
  | nil => simp [insertByOffset]
  | cons d ps ih =>
    rw [insertByOffset]
    split
    · exact List.mem_cons
    · rw [List.mem_cons, List.mem_cons, ih, or_left_comm]

theorem pairwise_insertByOffset (h : ps.Pairwise (·.2 ≤ ·.2)) : (insertByOffset p ps).Pairwise (·.2 ≤ ·.2) := by
  induction ps with
  | nil => exact List.pairwise_singleton _ _
  | cons q ps ih =>
    obtain ⟨hq, hps⟩ := List.pairwise_cons.1 h
    rw [insertByOffset]
    split
    · rename_i hlt
      refine .cons (fun r hr => ?_) h
      rcases List.mem_cons.1 hr with rfl | hr
      · exact Nat.le_of_lt hlt
      · exact Nat.le_trans (Nat.le_of_lt hlt) (hq r hr)
    · rename_i hle
      refine .cons (fun r hr => ?_) (ih hps)
      rcases mem_insertByOffset.1 hr with rfl | hr
      · exact Nat.le_of_not_lt hle
      · exact hq r hr

/-- Among those of one offset the problem comes last. -/
theorem filter_insertByOffset (h : ps.Pairwise (·.2 ≤ ·.2)) (offset : Nat) :
    (insertByOffset p ps).filter (·.2 == offset) = (ps ++ [p]).filter (·.2 == offset) := by
  induction ps with
  | nil => rfl
  | cons q ps ih =>
    obtain ⟨hq, hps⟩ := List.pairwise_cons.1 h
    rw [insertByOffset]
    split
    · rename_i hlt
      by_cases hp : p.2 = offset
      · have hnone : (q :: ps).filter (·.2 == offset) = [] := by
          rw [List.filter_eq_nil_iff]
          intro r hr
          have : q.2 ≤ r.2 := by
            rcases List.mem_cons.1 hr with rfl | hr
            · exact Nat.le_refl _
            · exact hq r hr
          simp only [beq_iff_eq]
          omega
        rw [List.filter_append, hnone, List.filter_cons_of_pos (by simpa using hp), hnone]
        simp [hp]
      · simp only [List.filter_append, List.filter_cons, List.filter_nil, beq_iff_eq, if_neg hp, List.append_nil]
    · rw [List.filter_cons, ih hps, List.cons_append, List.filter_cons]

theorem pairwise_byOffset (ps : List (Problem × Nat)) : (byOffset ps).Pairwise (·.2 ≤ ·.2) := by
  induction ps using List.reverseRecOn with
  | nil => exact .nil
  | append_singleton ps p ih =>
    rw [byOffset_concat]
    exact pairwise_insertByOffset ih

/-- Sorting leaves problems of one offset in their order. -/
theorem filter_byOffset (ps : List (Problem × Nat)) (offset : Nat) :
    (byOffset ps).filter (·.2 == offset) = ps.filter (·.2 == offset) := by
  induction ps using List.reverseRecOn with
  | nil => rfl
  | append_singleton ps p ih =>
    rw [byOffset_concat, filter_insertByOffset (pairwise_byOffset ps), List.filter_append, ih, List.filter_append]

end

/-! ## Reports -/

section
variable {t : Text} {ps : List (Problem × Nat)}

theorem Reports.mem_problems (h : Reports t ps) {p : Problem × Nat} (hp : p ∈ ps) : p ∈ problems t := by
  have hmem : p ∈ ps.filter (·.1.isLexical == p.1.isLexical) := List.mem_filter.2 ⟨hp, beq_self_eq_true _⟩
  rw [h] at hmem
  exact List.mem_of_mem_filter hmem

/-- However lexer and grammar take turns, the problems of one offset are reported in one order, for all of them are
reported by one of the two. -/
theorem Reports.filter_eq (h : Reports t ps) (offset : Nat) :
    ps.filter (·.2 == offset) = (problems t).filter (·.2 == offset) := by
  obtain ⟨lexical, hlexical⟩ : ∃ lexical, ∀ p ∈ problems t, p.2 = offset → p.1.isLexical = lexical := by
    by_cases hany : ∃ q ∈ problems t, q.2 = offset
    · obtain ⟨q, hq, rfl⟩ := hany
      exact ⟨_, fun p hp heq => isLexical_eq_of_offset_eq hp hq heq⟩
    · exact ⟨true, fun p hp heq => absurd ⟨p, hp, heq⟩ hany⟩
  have hone {qs : List (Problem × Nat)} (hqs : ∀ q ∈ qs, q ∈ problems t) :
      qs.filter (·.2 == offset) = (qs.filter (·.1.isLexical == lexical)).filter (·.2 == offset) := by
    rw [List.filter_filter]
    refine List.filter_congr fun q hq => ?_
    by_cases hoffset : q.2 = offset
    · simp [hoffset, hlexical q (hqs q hq) hoffset]
    · simp [hoffset]
  rw [hone fun q hq => h.mem_problems hq, h lexical, ← hone fun q hq => hq]

end

/-! ## The errors of a text -/

/-- Where an offset lies; both numbers count from one. -/
def placeAt (t : Text) (offset : Nat) : Nat × Nat :=
  (((LineIndex.ofText t).lineCol offset).1 + 1, ((LineIndex.ofText t).lineCol offset).2 + 1)

section
variable {t : Text} {ps : List (Problem × Nat)}

theorem place_located (t : Text) (p : Problem × Nat) :
    (SyntaxError.located (LineIndex.ofText t) p).place = placeAt t p.2 := rfl

theorem placeAt_le_iff {o o' : Nat} : toLex (placeAt t o) ≤ toLex (placeAt t o') ↔ o ≤ o' := by
  rw [← LineIndex.lineCol_le_iff (t := t), Prod.Lex.toLex_le_toLex, Prod.Lex.toLex_le_toLex]
  simp [placeAt]

/-- Two offsets never share a place. -/
theorem placeAt_inj {o o' : Nat} : placeAt t o = placeAt t o' ↔ o = o' := by
  rw [← LineIndex.lineCol_inj (t := t), Prod.ext_iff, Prod.ext_iff]
  simp [placeAt]

theorem pairwise_syntaxErrors (t : Text) : (syntaxErrors t).Pairwise fun e e' => toLex e.place ≤ toLex e'.place := by
  rw [syntaxErrors, ofText_snd, List.pairwise_map]
  exact (pairwise_byOffset (problems t)).imp placeAt_le_iff.2

/-- The errors of one place are the problems reported there, in the order in which they were reported. -/
theorem Reports.filter_syntaxErrors (h : Reports t ps) (place : Nat × Nat) :
    (syntaxErrors t).filter (·.place == place) =
      (ps.map (SyntaxError.located (LineIndex.ofText t))).filter (·.place == place) := by
  rw [syntaxErrors, ofText_snd, List.filter_map, List.filter_map]
  congr 1
  by_cases hplace : ∃ offset, placeAt t offset = place
  · obtain ⟨offset, rfl⟩ := hplace
    have hoffset : (fun e : SyntaxError => e.place == placeAt t offset) ∘ SyntaxError.located (LineIndex.ofText t) =
        fun p => p.2 == offset := by
      funext p
      simp [place_located, placeAt_inj]
    rw [hoffset, filter_byOffset, h.filter_eq]
  · have hnowhere : (fun e : SyntaxError => e.place == place) ∘ SyntaxError.located (LineIndex.ofText t) =
        fun _ => false := by
      funext p
      simpa [place_located] using fun heq => hplace ⟨p.2, heq⟩
    rw [hnowhere, List.filter_false, List.filter_false]

/-- **Lines and columns.** Of any offset the line is the number of line feeds among the bytes in front of it and the
column the distance from the last of them; the search for the line does not fail, and places are ordered as offsets
are. So the errors of a text are in reading order, those of one place as they were reported, and the first of them is
the answer of validation. -/
theorem lineCol_ofText_orders_errors (t : Text) :
    (∀ offset, (LineIndex.ofText t).lineCol offset =
        ((t.bytes.take offset).count lineFeed, offset - afterLastFeed (t.bytes.take offset)) ∧
      (LineIndex.ofText t).Locates offset ((LineIndex.ofText t).lineCol offset)) ∧
    (∀ o o', o < o' ↔ toLex ((LineIndex.ofText t).lineCol o) < toLex ((LineIndex.ofText t).lineCol o')) ∧
    ((syntaxErrors t).Pairwise fun e e' => toLex e.place ≤ toLex e'.place) ∧
    (∀ ps, Reports t ps → ∀ place, (syntaxErrors t).filter (·.place == place) =
      (ps.map (SyntaxError.located (LineIndex.ofText t))).filter (·.place == place)) ∧
    (validate t = .ok () ↔ syntaxErrors t = []) ∧
    ∀ e, validate t = .error e ↔ (syntaxErrors t).head? = some e := by
  refine ⟨fun offset => ⟨LineIndex.lineCol_ofText_eq t offset, LineIndex.locates_lineCol t offset⟩,
    fun o o' => LineIndex.lineCol_lt_iff.symm, pairwise_syntaxErrors t, fun ps h => h.filter_syntaxErrors, ?_,
    fun e => ⟨head?_of_validate, validate_of_head?⟩⟩
  rw [← problems_eq_nil_iff, syntaxErrors, ofText_snd, List.map_eq_nil_iff, byOffset_eq_nil_iff]

/-- Two complaints about one parenthesis, with a fault reported between them. -/
theorem lineCol_ofText_orders_errors_parenthesis :
    let t : Text := "\x7b a\n)?"
    let ps : List (Problem × Nat) := [(.grammatical (.instead .rightCurly [')']), 4), (.lexical (.unexpected '?'), 5),
      (.grammatical .noDefinitionStart, 4)]
    Reports t ps ∧ (syntaxErrors t).filter (·.place == (2, 1)) =
      [⟨.grammatical (.instead .rightCurly [')']), 4, 2, 1⟩, ⟨.grammatical .noDefinitionStart, 4, 2, 1⟩] := by
  intro t ps
  have hreports : Reports t ps := by
    intro lexical
    cases lexical <;> decide +kernel
  obtain ⟨-, -, -, hties, -, -⟩ := lineCol_ofText_orders_errors t
  exact ⟨hreports, (hties ps hreports (2, 1)).trans (by decide)⟩

end

end GraphqlBuild.Graphql
