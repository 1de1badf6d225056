import GraphqlBuild.Proofs.Graphql.Ending
import GraphqlBuild.Proofs.Graphql.Squeeze
/-!
# What collapsing does to a document

A collapsed text is on one line, so its first comment takes all that stands behind it. What the grammar reads
of the text are the words in front of that comment, but for the blanks in strings (`words_collapse`), and the
document is theirs (`document_collapse`).
-/

namespace GraphqlBuild

namespace Text

theorem head?_squeeze {t : Text} {q : Char} (hq : isBlank q = false) (h : t.head? = some q) :
    t.squeeze.head? = some q := by
  obtain ⟨rest, rfl⟩ := List.head?_eq_some_iff.1 h
  simp [squeeze, squeezeFrom, hq]

theorem collapse_eq_squeeze_trim (t : Text) : t.collapse = t.trim.squeeze := by
  rw [← collapse_trim, ← squeezeFrom_true fun _ => isBlank_of_mem_getLast?_trim]
  cases htrim : t.trim with
  | nil => rfl
  | cons c rest =>
    have hc : isBlank c = false := isBlank_of_mem_head?_trim (t := t) (by simp [htrim])
    simp [squeeze, squeezeFrom, hc]

end Text

namespace Graphql

/-- A string token is squeezed. -/
abbrev Likeness.squeezing : (Text → Prop) → Likeness := rewriting Text.squeeze

theorem keepsQuote_squeeze : KeepsQuote Text.squeeze := fun _ => Text.head?_squeeze (by decide)

variable {strings : Text → Prop}

namespace Lexer
variable {pending : Bool} {lexer lexer' : Lexer}

/-! ## The end of the text -/

/-- Where only blanks are left, the token at hand ends without a fault unless it is one of blanks. -/
theorem Sound.run_of_isBlank {trail : Text} (h : lexer.Sound trail) (htrail : ∀ c ∈ trail, isBlank c = true)
    (hcomment : lexer.mode ≠ .comment) (hbetween : ¬(lexer.mode = .blank ∨ lexer.mode = .ready)) :
    faultsOf lexer.flush = [] ∧ ∃ more : List Token, (∀ m ∈ more, m.kind = .blank) ∧ tokensOf (lexer.run trail) =
      tokensOf lexer.flush ++ (more ++ [⟨.stop, "EOF", lexer.offset + trail.size⟩]) := by
  cases trail with
  | nil =>
    refine ⟨sound_nil.1 h, [], by simp, ?_⟩
    rw [run_nil, tokensOf_append]
    rfl
  | cons c trail =>
    have hnone := h.step_eq_none htrail hcomment hbetween
    rw [Sound, run_of_step_eq_none hnone, faultsOf_append, List.append_eq_nil_iff] at h
    obtain ⟨more, hmore, hrun⟩ := (isBetween_between lexer.offset).run_of_isBlank htrail
    refine ⟨h.1, more, hmore, ?_⟩
    rw [run_of_step_eq_none hnone, tokensOf_append, hrun]
    rfl

/-- Blanks up to the end that trimming has dropped. -/
theorem Squeezing.tokens_of_blanks (h : Squeezing pending lexer lexer') {trail : Text}
    (htrail : ∀ c ∈ trail, isBlank c = true) (hsound : lexer.Sound trail)
    (hstring : ∀ t ∈ tokensOf (lexer.run trail), t.kind = .string → strings t.text) :
    (Likeness.squeezing strings).Tokens (tokensOf (lexer.run trail)) (tokensOf (lexer'.run [])) ∧ lexer'.Sound [] := by
  rw [sound_nil, run_nil, tokensOf_append]
  by_cases hbetween : lexer.mode = .blank ∨ lexer.mode = .ready
  · obtain ⟨more, hmore, hrun⟩ := IsBetween.run_of_isBlank (hbetween.imp_right h.ready) htrail
    obtain ⟨more', hmore', hflush⟩ : ∃ more' : List Token, (∀ m ∈ more', m.kind = .blank) ∧
        lexer'.flush = more'.map .token := by
      rw [Lexer.flush, h.mode]
      rcases hbetween with hm | hm
      · rw [hm]
        exact ⟨[⟨.blank, _, _⟩], by simp, rfl⟩
      · rw [hm]
        exact ⟨[], by simp, rfl⟩
    rw [hrun, hflush, tokensOf_map_token, faultsOf_map_token]
    exact ⟨Likeness.tokens_rewriting_stop _ _ _ _ (fun m hm => .inl (hmore m hm)) fun m hm => .inl (hmore' m hm), rfl⟩
  · obtain ⟨hfault, more, hmore, hrun⟩ := hsound.run_of_isBlank htrail h.comment hbetween
    obtain ⟨htokens, hfault'⟩ := h.flush hfault
    rw [hrun] at hstring ⊢
    exact ⟨Likeness.tokens_rewriting_append keepsQuote_squeeze htokens
      (fun t ht => hstring t (List.mem_append_left _ ht))
      (Likeness.tokens_rewriting_stop more [] _ _ (fun m hm => .inl (hmore m hm)) (by simp)), hfault'⟩

/-- In front of a comment the token at hand ends without a fault. -/
theorem Sound.nil_of_comment {c : Char} {rest : Text} (h : lexer.Sound (c :: rest)) (hm : lexer.mode ≠ .comment)
    (hnext : lexer.mode.next c = .comment) : lexer.Sound [] := by
  obtain ⟨-, hlexemes, -⟩ := advance_of_comment hm hnext
  exact sound_nil.2 (hlexemes ▸ (sound_cons.1 h).1)

/-- The end of the first text, and a comment up to the end of the second. -/
theorem Squeezing.tokens_of_comment (h : Squeezing pending lexer lexer') {c : Char}
    (hnext : lexer.mode.next c = .comment) {rest : Text} (hrest : ∀ d ∈ rest, endsLine d = false) (hsound : lexer.Sound [])
    (hstring : ∀ t ∈ tokensOf (lexer.run []), t.kind = .string → strings t.text) :
    (Likeness.squeezing strings).Tokens (tokensOf (lexer.run [])) (tokensOf (lexer'.run (c :: rest))) ∧
      lexer'.Sound (c :: rest) := by
  have hmode' : lexer'.mode ≠ .comment ∧ lexer'.mode.next c = .comment := by
    rw [h.mode]
    exact ⟨h.comment, hnext⟩
  obtain ⟨-, hlexemes, hcomment⟩ := advance_of_comment hmode'.1 hmode'.2
  obtain ⟨text, hrun⟩ := run_of_comment hcomment hrest
  obtain ⟨htokens, hfault⟩ := h.flush (sound_nil.1 hsound)
  rw [run_nil, tokensOf_append] at hstring ⊢
  rw [Sound, run_cons, hlexemes, hrun, tokensOf_append, faultsOf_append, hfault]
  refine ⟨Likeness.tokens_rewriting_append keepsQuote_squeeze htokens
    (fun t ht => hstring t (List.mem_append_left _ ht)) ?_, rfl⟩
  exact Likeness.tokens_rewriting_stop [] [_] _ _ (by simp) (by simp)

end Lexer

/-! ## The whole text -/

theorem endsLine_squeezeFrom (pending : Bool) (t : Text) : ∀ c ∈ Text.squeezeFrom pending t, endsLine c = false := by
  induction t generalizing pending with
  | nil => simp [Text.squeezeFrom]
  | cons c t ih =>
    rw [Text.squeezeFrom]
    cases hc : isBlank c with
    | true =>
      cases pending with
      | true => exact ih true
      | false => exact List.forall_mem_cons.2 ⟨rfl, ih true⟩
    | false =>
      refine List.forall_mem_cons.2 ⟨?_, ih false⟩
      by_contra hline
      simp only [endsLine, Bool.or_eq_false_iff, beq_eq_false_iff_ne, not_and_or, Decidable.not_not] at hline
      rcases hline with rfl | rfl <;> simp [isBlank, CodeRange.cover, blankRanges] at hc

section Ends
variable {lead t trail : Text} (hlead : ∀ c ∈ lead, isIgnoredBlank c = true)
include hlead

/-- Two lexers that are abreast behind `t` read the rest of the one text and the rest of the other. -/
theorem words_of_ends (rest rest' : Text)
    (hlexemes : SqueezedLexemes ((Lexer.between lead.size).feed t).1 ((Lexer.between 0).feed t.squeeze).1)
    (hends : (∀ u ∈ tokensOf (((Lexer.between lead.size).feed t).2.run rest), u.kind = .string →
        u.text ∈ stringTokens (lead ++ (t ++ rest))) →
      (Likeness.squeezing (· ∈ stringTokens (lead ++ (t ++ rest)))).Tokens
          (tokensOf (((Lexer.between lead.size).feed t).2.run rest))
          (tokensOf (((Lexer.between 0).feed t.squeeze).2.run rest')) ∧
        ((Lexer.between 0).feed t.squeeze).2.Sound rest') :
    faultsOf (lexemes (t.squeeze ++ rest')) = [] ∧
      (Likeness.squeezing (· ∈ stringTokens (lead ++ (t ++ rest)))).Words
        (wordsOf (tokensOf (lexemes (lead ++ (t ++ rest))))) (wordsOf (tokensOf (lexemes (t.squeeze ++ rest')))) := by
  have hwords := (Lexer.words_of_blanks_before hlead (t ++ rest)).1
  rw [Lexer.run_append, tokensOf_append] at hwords
  have hstring {u : Token} := mem_stringTokens (u := u) hwords
  obtain ⟨htokens, hsound⟩ := hends fun u hu => hstring (List.mem_append_right _ hu)
  have hrun : lexemes (t.squeeze ++ rest') =
      ((Lexer.between 0).feed t.squeeze).1 ++ ((Lexer.between 0).feed t.squeeze).2.run rest' := Lexer.run_append ..
  rw [hrun, hwords, faultsOf_append, tokensOf_append, hlexemes.faultless, hsound]
  exact ⟨rfl, (Likeness.tokens_rewriting_append keepsQuote_squeeze hlexemes.tokens
    (fun u hu => hstring (List.mem_append_left _ hu)) htokens).words⟩

theorem words_squeeze (htrail : ∀ c ∈ trail, isBlank c = true) (hsound : (Lexer.between lead.size).Sound (t ++ trail))
    (hfree : Mode.ready.beforeComment t = t) :
    faultsOf (lexemes t.squeeze) = [] ∧ (Likeness.squeezing (· ∈ stringTokens (lead ++ (t ++ trail)))).Words
      (wordsOf (tokensOf (lexemes (lead ++ (t ++ trail))))) (wordsOf (tokensOf (lexemes t.squeeze))) := by
  obtain ⟨hlexemes, pending, hlast⟩ := (Lexer.squeezing_between lead.size 0).feed hsound hfree
  have := words_of_ends hlead trail [] hlexemes
    (hlast.tokens_of_blanks htrail (Lexer.sound_append.1 hsound).2)
  rwa [List.append_nil] at this

theorem words_squeeze_of_comment {rest : Text} (rest' : Text)
    (hsound : (Lexer.between lead.size).Sound (t ++ '#' :: rest)) (hfree : Mode.ready.beforeComment t = t)
    (hnext : (t.foldl Mode.next .ready).next '#' = .comment) :
    faultsOf (lexemes (lead ++ t)) = [] ∧ faultsOf (lexemes (Text.squeeze (t ++ '#' :: rest'))) = [] ∧
      (Likeness.squeezing (· ∈ stringTokens (lead ++ t))).Words
        (wordsOf (tokensOf (lexemes (lead ++ t))))
        (wordsOf (tokensOf (lexemes (Text.squeeze (t ++ '#' :: rest'))))) := by
  obtain ⟨hlexemes, pending, hlast⟩ := (Lexer.squeezing_between lead.size 0).feed hsound hfree
  have hmode : ((Lexer.between lead.size).feed t).2.mode.next '#' = .comment := by rwa [Lexer.mode_feed]
  obtain ⟨hfault, hrest⟩ := Lexer.sound_append.1 hsound
  have hend := hrest.nil_of_comment hlast.comment hmode
  have hsqueeze : Text.squeeze (t ++ '#' :: rest') = t.squeeze ++ '#' :: Text.squeezeFrom false rest' := by
    rw [Text.squeeze, Text.squeezeFrom_append, Text.squeezeFrom, if_neg (by decide)]
    rfl
  have hwords := words_of_ends hlead [] _ hlexemes
    (hlast.tokens_of_comment hmode (endsLine_squeezeFrom false rest') hend)
  rw [List.append_nil] at hwords
  rw [hsqueeze, (Lexer.words_of_blanks_before hlead t).2]
  refine ⟨?_, hwords⟩
  have := Lexer.sound_append.2 ⟨hfault, hend⟩
  rwa [List.append_nil] at this

end Ends

/-- In a text without faults the language ignores the blanks that trimming drops in front. -/
theorem isIgnoredBlank_of_mem_leading {t : Text} (ht : faultsOf (lexemes t) = []) :
    ∀ c ∈ t.leading, isIgnoredBlank c = true := by
  have hwhole : (Lexer.between 0).Sound (t.leading ++ (t.trim ++ t.trailing)) := by
    rw [t.leading_trim_trailing]
    exact ht
  exact (Lexer.isBetween_between 0).ignored_of_sound hwhole fun _ => Text.isBlank_of_mem_leading

/-- The words of a collapsed text are those in front of the first comment. -/
theorem words_collapse {t : Text} (ht : faultsOf (lexemes t) = []) :
    faultsOf (lexemes (beforeComment t)) = [] ∧ faultsOf (lexemes t.collapse) = [] ∧
      (Likeness.squeezing (· ∈ stringTokens (beforeComment t))).Words
        (wordsOf (tokensOf (lexemes (beforeComment t)))) (wordsOf (tokensOf (lexemes t.collapse))) := by
  have hparts := t.leading_trim_trailing
  have htrail : ∀ c ∈ t.trailing, isBlank c = true := fun _ => Text.isBlank_of_mem_trailing
  have hlead := isIgnoredBlank_of_mem_leading ht
  have hsound : (Lexer.between t.leading.size).Sound (t.trim ++ t.trailing) := by
    rw [Lexer.Sound, ← (Lexer.words_of_blanks_before hlead _).2, hparts, ht]
  have hbefore : beforeComment t = t.leading ++ Mode.ready.beforeComment (t.trim ++ t.trailing) := by
    rw [← Mode.beforeComment_of_blanks hlead, hparts, beforeComment]
  rw [hbefore, Text.collapse_eq_squeeze_trim]
  rcases Mode.beforeComment_eq_or (m := .ready) (by simp) (t.trim ++ t.trailing) with
    hnone | ⟨rest, htext, hnext, hfree⟩
  · have hwords := words_squeeze hlead htrail hsound (Mode.beforeComment_append_left hnone)
    rw [hnone]
    exact ⟨by rw [hparts, ht], hwords⟩
  · have hnot : '#' ∉ t.trailing := fun hm => absurd (htrail _ hm) (by decide)
    rcases List.append_eq_append_iff.1 htext with ⟨_, -, htrailing⟩ | ⟨behind, htrim, hbehind⟩
    · exact absurd (by simp [htrailing]) hnot
    · cases behind with
      | nil => exact absurd (hbehind ▸ List.mem_cons_self : '#' ∈ [] ++ t.trailing) hnot
      | cons c behind =>
        obtain ⟨rfl, -⟩ := List.cons.inj hbehind
        rw [htext] at hsound
        have hwords := words_squeeze_of_comment hlead behind hsound hfree hnext
        rwa [← htrim] at hwords

/-- What collapsing makes of the document in front of the first comment. -/
theorem document_collapse {t : Text} (ht : faultsOf (lexemes t) = []) :
    (validate t.collapse = .ok () ↔ validate (beforeComment t) = .ok ()) ∧
      Document.Alike (fun v v' => ∃ x ∈ stringTokens (beforeComment t), v = stringValue x ∧ v' = stringValue x.squeeze)
        (Document.ofText (beforeComment t)).1 (Document.ofText t.collapse).1 := by
  obtain ⟨hbefore, hcollapse, hwords⟩ := words_collapse ht
  exact ⟨hwords.validate_iff hbefore hcollapse, Likeness.values_rewriting .. ▸ hwords.document.1⟩

/-- No valid text collapses to nothing. -/
theorem collapse_ne_nil {t : Text} (h : validate t = .ok ()) : t.collapse ≠ [] := by
  intro hnil
  have hwords : Text.words t = [] := by rw [← Text.words_collapse, hnil, Text.words_nil]
  have hsharp : '#' ∉ t := fun hm => Text.words_ne_nil (by decide) hm hwords
  have hiff := (document_collapse (validate_eq_ok_iff.1 h).1).1
  rw [beforeComment, Mode.beforeComment_of_notMem (by simp) hsharp, hnil] at hiff
  exact absurd (problems_eq_nil_iff.2 (hiff.2 h)) (by decide)

end Graphql

end GraphqlBuild
