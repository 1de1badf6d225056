import GraphqlBuild.Proofs.Graphql.Collapse
import GraphqlBuild.Proofs.Graphql.Line
/-!
# What trimming does to a document

In a text without faults the blanks that trimming drops are ignored by the grammar, or part of a comment at
the end. So the trimmed text is the same document (`document_trim`).
-/

namespace GraphqlBuild

namespace Graphql

namespace Lexer
variable {lexer : Lexer} {t trail : Text} {n : Nat}

theorem eq_between_of_advance (lexer : Lexer) (c : Char) (h : (lexer.advance c).2.mode = .ready) :
    (lexer.advance c).2 = between (lexer.advance c).2.offset := by
  have htake {l : Lexer} {s : Step} (hs : ∀ m, s = .more m → m ≠ .ready) (h : (l.take c s).2.mode = .ready) :
      (l.take c s).2 = between (l.take c s).2.offset := by
    cases s with
    | more m => exact absurd h (hs m rfl)
    | last outcome => rfl
  unfold advance at h ⊢
  split at h
  · rename_i s hs
    exact htake (fun m hm => step_ne_ready (hm ▸ hs)) h
  · exact htake (fun m hm => step_ne_ready (m := .ready) (congrArg some hm)) h

theorem eq_between_of_feed (h : lexer.mode = .ready → lexer = between lexer.offset) (t : Text) :
    (lexer.feed t).2.mode = .ready → (lexer.feed t).2 = between (lexer.feed t).2.offset := by
  induction t generalizing lexer with
  | nil => exact h
  | cons c t ih => exact ih (eq_between_of_advance lexer c)

/-- The tokens of the text are these, and behind them blanks and comments up to the end. -/
def Keeps (lexer : Lexer) (t : Text) (kept : List Token) : Prop :=
  ∃ (more : List Token) (offset : Nat), (∀ m ∈ more, m.kind = .blank ∨ m.kind = .comment) ∧
    tokensOf (lexer.run t) = kept ++ (more ++ [⟨.stop, "EOF", offset⟩])

/-- Where only blanks are left, they make no difference but for blanks and comments. -/
theorem Sound.keeps (h : lexer.Sound trail) (hready : lexer.mode = .ready → lexer = between lexer.offset)
    (htrail : ∀ c ∈ trail, isBlank c = true) :
    lexer.Sound [] ∧ ∃ kept, lexer.Keeps [] kept ∧ lexer.Keeps trail kept := by
  have hnil {kept : List Token} {more : List Token} (hflush : tokensOf lexer.flush = kept ++ more)
      (hmore : ∀ m ∈ more, m.kind = .blank ∨ m.kind = .comment) : lexer.Keeps [] kept := by
    refine ⟨more, lexer.offset, hmore, ?_⟩
    rw [run_nil, tokensOf_append, hflush, List.append_assoc]
    rfl
  by_cases hcomment : lexer.mode = .comment
  · have hflush : lexer.flush = [.token ⟨.comment, lexer.taken.reverse, lexer.start⟩] := by
      rw [flush, hcomment]
      rfl
    refine ⟨by rw [sound_nil, hflush]; rfl, [], hnil (by rw [hflush]; rfl) (by simp), ?_⟩
    rcases line_cases trail with hline | ⟨line, e, rest, rfl, hline, he⟩
    · obtain ⟨text, hrun⟩ := run_of_comment hcomment hline
      exact ⟨[⟨.comment, text, lexer.start⟩], _, by simp, by rw [hrun]; rfl⟩
    · obtain ⟨text, next, hrun, hblank⟩ := run_comment_line rest hcomment hline he
      have hrest : ∀ c ∈ rest, isBlank c = true := fun c hc => htrail c (by simp [hc])
      obtain ⟨more, hmore, hrun'⟩ := IsBetween.run_of_isBlank (.inl hblank) hrest
      refine ⟨⟨.comment, text, lexer.start⟩ :: more, _, ?_, by rw [hrun, tokensOf_token, hrun']; rfl⟩
      exact List.forall_mem_cons.2 ⟨.inr rfl, fun m hm => .inl (hmore m hm)⟩
  · by_cases hbetween : lexer.mode = .blank ∨ lexer.mode = .ready
    · have hlexer : lexer.IsBetween := hbetween.imp_right hready
      have hsound : lexer.Sound [] := by
        rw [sound_nil, flush]
        rcases hbetween with hm | hm <;> rw [hm] <;> rfl
      have hkeeps {u : Text} (hu : ∀ c ∈ u, isBlank c = true) : lexer.Keeps u [] := by
        obtain ⟨more, hmore, hrun⟩ := hlexer.run_of_isBlank hu
        exact ⟨more, _, fun m hm => .inl (hmore m hm), hrun⟩
      exact ⟨hsound, [], hkeeps (by simp), hkeeps htrail⟩
    · obtain ⟨hfault, more, hmore, hrun⟩ := h.run_of_isBlank htrail hcomment hbetween
      have hkeeps : lexer.Keeps trail (tokensOf lexer.flush) := ⟨more, _, fun m hm => .inl (hmore m hm), hrun⟩
      exact ⟨sound_nil.2 hfault, _, hnil (List.append_nil _).symm (by simp), hkeeps⟩

theorem Keeps.tokens {kept : List Token} (h : lexer.Keeps [] kept) (htrail : lexer.Keeps trail kept) :
    (Likeness.moved n 0).Tokens (tokensOf (lexer.run [])) ((tokensOf (lexer.run trail)).map (Token.shift n)) := by
  obtain ⟨more, offset, hmore, hrun⟩ := h
  obtain ⟨more', offset', hmore', hrun'⟩ := htrail
  rw [hrun, hrun', List.map_append, List.map_append]
  refine Likeness.tokens_moved_append kept (.stop (Likeness.token_moved rfl rfl (.inr ?_)) rfl hmore ?_ ?_)
  · simp
  · simpa using hmore'
  · intro m _ m' hm'
    have hmoved : m' ∈ (more' ++ [(⟨.stop, "EOF", offset'⟩ : Token)]).map (Token.shift n) := by
      rw [List.map_append]
      exact List.mem_of_mem_head? hm'
    obtain ⟨u, -, rfl⟩ := List.mem_map.1 hmoved
    exact .inr (by simp)

end Lexer

/-- Blanks at the ends of a text without faults make no difference to the grammar. -/
theorem words_trim {t : Text} (ht : faultsOf (lexemes t) = []) :
    faultsOf (lexemes t.trim) = [] ∧ (Likeness.moved t.leading.size 0).Words
      (wordsOf (tokensOf (lexemes t.trim))) (wordsOf (tokensOf (lexemes t))) := by
  have hparts := t.leading_trim_trailing
  have htrail : ∀ c ∈ t.trailing, isBlank c = true := fun _ => Text.isBlank_of_mem_trailing
  obtain ⟨hwords, hfaults⟩ := words_of_blanks_before (isIgnoredBlank_of_mem_leading ht) (t.trim ++ t.trailing)
  rw [hparts] at hwords hfaults
  have hsound : (Lexer.between 0).Sound (t.trim ++ t.trailing) := by
    rw [ht] at hfaults
    exact List.map_eq_nil_iff.1 hfaults.symm
  obtain ⟨hfault, hrest⟩ := Lexer.sound_append.1 hsound
  have hready := Lexer.eq_between_of_feed (fun _ => rfl : (Lexer.between 0).mode = .ready → _) t.trim
  obtain ⟨hend, kept, hkeeps, hkeeps'⟩ := hrest.keeps hready htrail
  have halone : lexemes t.trim = ((Lexer.between 0).feed t.trim).1 ++ ((Lexer.between 0).feed t.trim).2.run [] :=
    Lexer.run_eq_feed ..
  have hwhole : lexemes (t.trim ++ t.trailing) =
      ((Lexer.between 0).feed t.trim).1 ++ ((Lexer.between 0).feed t.trim).2.run t.trailing := Lexer.run_append ..
  rw [hwords, hwhole, halone, faultsOf_append, hfault, hend, tokensOf_append, tokensOf_append, List.map_append]
  exact ⟨rfl, (Likeness.tokens_moved_append _ (hkeeps.tokens hkeeps')).words⟩

/-- A text without faults is the same document without the blanks at its ends. -/
theorem document_trim {t : Text} (ht : faultsOf (lexemes t) = []) :
    (validate t.trim = .ok () ↔ validate t = .ok ()) ∧ (Document.ofText t.trim).1 = (Document.ofText t).1 := by
  obtain ⟨htrim, hwords⟩ := words_trim ht
  exact ⟨(hwords.validate_iff htrim ht).symm, Document.Alike.eq (Likeness.eq_of_values fun h => h) hwords.document.1⟩

end Graphql

end GraphqlBuild
