import GraphqlBuild.Proofs.Graphql.Parser.TypeSystem
/-!
# Words of tokens that are alike

Tokens that correspond one by one make words that are alike, also if only one side has blanks and comments in
front of the end (`Likeness.Tokens.words`). So the documents are alike, and the complaints about them
correspond (`Likeness.Words.document`).
-/

namespace GraphqlBuild.Graphql

theorem wordsOf_cons_of_ignored {t : Token} (h : t.kind.isIgnored = true) (rest : List Token) :
    wordsOf (t :: rest) = wordsOf rest := by
  rw [wordsOf, if_pos h]

theorem wordsOf_append_of_ignored {ignored : List Token} (h : ∀ t ∈ ignored, t.kind.isIgnored = true)
    (rest : List Token) : wordsOf (ignored ++ rest) = wordsOf rest := by
  induction ignored with
  | nil => rfl
  | cons t ignored ih =>
    rw [List.cons_append, wordsOf_cons_of_ignored (h t List.mem_cons_self)]
    exact ih fun u hu => h u (List.mem_cons_of_mem _ hu)

namespace Likeness
variable (L : Likeness)

/-- Tokens that the grammar takes for the same. -/
structure Token (t t' : Graphql.Token) : Prop where
  kind : t.kind = t'.kind
  text : t.kind.isIgnored = false → t.kind ≠ .string → t.text = t'.text
  spelling : t.kind = .string → SameSpelling t.text t'.text
  string : t.kind = .string → L.strings t.text t'.text
  complaint : ∀ c, L.complaints (c, t.offset) (c, t'.offset)
  instead : ∀ a, L.complaints (.instead a t.text, t.offset) (.instead a t'.text, t'.offset)

/-- Such tokens one by one. In front of the two ends any blanks and comments may stand, and elsewhere some for some
others; a bracket awaited there is missed at the first of them. -/
inductive Tokens : List Graphql.Token → List Graphql.Token → Prop
  | stop {t t' : Graphql.Token} {more more' : List Graphql.Token} :
      L.Token t t' → t.kind = .stop → (∀ m ∈ more, m.kind = .blank ∨ m.kind = .comment) →
      (∀ m ∈ more', m.kind = .blank ∨ m.kind = .comment) →
      (∀ m ∈ (more ++ [t]).head?, ∀ m' ∈ (more' ++ [t']).head?,
        L.complaints (.instead .rightBracket m.text, m.offset) (.instead .rightBracket m'.text, m'.offset)) →
      Tokens (more ++ [t]) (more' ++ [t'])
  | cons {t t' : Graphql.Token} {rest rest' : List Graphql.Token} :
      L.Token t t' → Tokens rest rest' → Tokens (t :: rest) (t' :: rest')
  | gap {g g' : Graphql.Token} {more more' rest rest' : List Graphql.Token} :
      (∀ m ∈ g :: more, m.kind = .blank ∨ m.kind = .comment) →
      (∀ m ∈ g' :: more', m.kind = .blank ∨ m.kind = .comment) →
      L.complaints (.instead .rightBracket g.text, g.offset) (.instead .rightBracket g'.text, g'.offset) →
      Tokens rest rest' → Tokens (g :: more ++ rest) (g' :: more' ++ rest')

variable {L}

theorem isIgnored_of_blank_or_comment {t : Graphql.Token} (h : t.kind = .blank ∨ t.kind = .comment) :
    t.kind.isIgnored = true ∧ t.kind ≠ .comma := by
  rcases h with h | h <;> rw [h] <;> decide

theorem Token.word {t t' : Graphql.Token} (h : L.Token t t') (hseen : t.kind.isIgnored = false) {comma : Bool}
    {trailing trailing' : Option Graphql.Token} :
    L.Word ⟨t.kind, t.text, t.offset, comma, trailing⟩ ⟨t'.kind, t'.text, t'.offset, comma, trailing'⟩ where
  kind := h.kind
  comma := rfl
  text := h.text hseen
  spelling := by
    by_cases hstring : t.kind = .string
    · exact h.spelling hstring
    · exact .inl (h.text hseen hstring)
  string := h.string
  complaint := h.complaint
  instead := h.instead

/-- Blanks and comments in front make no difference to whether a comma follows. -/
theorem comma_append_of_gap {gap : List Graphql.Token} (h : ∀ m ∈ gap, m.kind = .blank ∨ m.kind = .comment)
    (rest : List Graphql.Token) :
    (((gap ++ rest).takeWhile fun r => r.kind.isIgnored).any fun r => r.kind == .comma) =
      (rest.takeWhile fun r => r.kind.isIgnored).any fun r => r.kind == .comma := by
  induction gap with
  | nil => rfl
  | cons g gap ih =>
    obtain ⟨hg, hgap⟩ := List.forall_mem_cons.1 h
    obtain ⟨hignored, hcomma⟩ := isIgnored_of_blank_or_comment hg
    simp only [List.cons_append, List.takeWhile_cons, hignored, if_true, List.any_cons, ih hgap,
      beq_eq_false_iff_ne.2 hcomma, Bool.false_or]

/-- No comma stands in front of the end. -/
theorem not_comma_of_end {t : Graphql.Token} {more : List Graphql.Token} (ht : t.kind = .stop)
    (hmore : ∀ m ∈ more, m.kind = .blank ∨ m.kind = .comment) :
    (((more ++ [t]).takeWhile fun r => r.kind.isIgnored).any fun r => r.kind == .comma) = false := by
  have hseen : t.kind.isIgnored = false := by rw [ht]; rfl
  rw [comma_append_of_gap hmore]
  simp [hseen]

theorem Tokens.comma_eq {ts ts' : List Graphql.Token} (h : L.Tokens ts ts') :
    ((ts.takeWhile fun r => r.kind.isIgnored).any fun r => r.kind == .comma) =
      (ts'.takeWhile fun r => r.kind.isIgnored).any fun r => r.kind == .comma := by
  induction h with
  | stop ht hstop hmore hmore' _ =>
    rw [not_comma_of_end hstop hmore, not_comma_of_end (ht.kind ▸ hstop) hmore']
  | cons ht _ ih =>
    simp only [List.takeWhile_cons, ← ht.kind]
    split
    · simp only [List.any_cons, ← ht.kind, ih]
    · rfl
  | gap hgap hgap' _ _ ih => rw [comma_append_of_gap hgap, comma_append_of_gap hgap', ih]

/-- What stands right behind a word in front of the tokens, if it is ignored. -/
abbrev trailing (ts : List Graphql.Token) : Option Graphql.Token := ts.head?.filter fun r => r.kind.isIgnored

theorem trailing_cons_of_ignored {t : Graphql.Token} (h : t.kind.isIgnored = true) (rest : List Graphql.Token) :
    trailing (t :: rest) = some t := by
  rw [trailing, List.head?_cons, Option.filter_some, if_pos h]

theorem trailing_cons_of_seen {t : Graphql.Token} (h : t.kind.isIgnored = false) (rest : List Graphql.Token) :
    trailing (t :: rest) = none := by
  rw [trailing, List.head?_cons, Option.filter_some, if_neg (by simp [h])]

/-- In front of the end a bracket is missed at the first token. -/
theorem closing?_of_end {w : Graphql.Word} {t m : Graphql.Token} {more : List Graphql.Token} (ht : t.kind = .stop)
    (hmore : ∀ m ∈ more, m.kind = .blank ∨ m.kind = .comment) (hw : w.trailing = trailing (more ++ [t]))
    (hm : (more ++ [t]).head? = some m) :
    closing? w (wordsOf (more ++ [t])) = some (.instead .rightBracket m.text, m.offset) := by
  cases more with
  | nil =>
    obtain rfl : t = m := Option.some.inj hm
    have hseen : t.kind.isIgnored = false := by rw [ht]; rfl
    rw [List.nil_append, trailing_cons_of_seen hseen] at hw
    simp [closing?, hw, wordsOf, ht, Kind.isIgnored]
  | cons first more =>
    obtain rfl : first = m := Option.some.inj hm
    rw [List.cons_append, trailing_cons_of_ignored (isIgnored_of_blank_or_comment (hmore _ List.mem_cons_self)).1] at hw
    simp [closing?, hw]

/-- The same awaits a closing bracket behind words in front of the tokens. -/
theorem Tokens.closing {ts ts' : List Graphql.Token} (h : L.Tokens ts ts') {w w' : Graphql.Word}
    (hw : w.trailing = trailing ts) (hw' : w'.trailing = trailing ts') :
    L.Closing w (wordsOf ts) w' (wordsOf ts') := by
  cases h with
  | @stop t t' more more' ht hstop hmore hmore' hfirst =>
    have hhead (t : Graphql.Token) (more : List Graphql.Token) : ∃ m, (more ++ [t]).head? = some m := by
      cases more <;> exact ⟨_, rfl⟩
    obtain ⟨m, hm⟩ := hhead t more
    obtain ⟨m', hm'⟩ := hhead t' more'
    exact .inr ⟨_, _, closing?_of_end hstop hmore hw hm, closing?_of_end (ht.kind ▸ hstop) hmore' hw' hm',
      hfirst m hm m' hm'⟩
  | @cons t t' rest rest' ht _ =>
    cases hignored : t.kind.isIgnored with
    | true =>
      rw [trailing_cons_of_ignored hignored] at hw
      rw [trailing_cons_of_ignored (by rw [← ht.kind, hignored])] at hw'
      exact .inr ⟨_, _, by simp [closing?, hw], by simp [closing?, hw'], ht.instead .rightBracket⟩
    | false =>
      rw [trailing_cons_of_seen hignored] at hw
      rw [trailing_cons_of_seen (by rw [← ht.kind, hignored])] at hw'
      exact .inl ⟨hw, hw'⟩
  | gap hgap hgap' hfirst _ =>
    rw [List.cons_append, trailing_cons_of_ignored (isIgnored_of_blank_or_comment (hgap _ List.mem_cons_self)).1] at hw
    rw [List.cons_append,
      trailing_cons_of_ignored (isIgnored_of_blank_or_comment (hgap' _ List.mem_cons_self)).1] at hw'
    exact .inr ⟨_, _, by simp [closing?, hw], by simp [closing?, hw'], hfirst⟩

/-- By induction on the tokens; what a word says of the ignored tokens behind it is the same on both sides. -/
theorem Tokens.words {ts ts' : List Graphql.Token} (h : L.Tokens ts ts') : L.Words (wordsOf ts) (wordsOf ts') := by
  induction h with
  | @stop t t' more more' ht hstop hmore hmore' _ =>
    have hseen : t.kind.isIgnored = false := by rw [hstop]; rfl
    have hseen' : t'.kind.isIgnored = false := by rw [← ht.kind, hseen]
    rw [wordsOf_append_of_ignored fun m hm => (isIgnored_of_blank_or_comment (hmore m hm)).1,
      wordsOf_append_of_ignored fun m hm => (isIgnored_of_blank_or_comment (hmore' m hm)).1]
    simp only [wordsOf, hseen, hseen']
    exact .cons (ht.word hseen) (.inl ⟨rfl, rfl⟩) .nil
  | @cons t t' rest rest' ht hrest ih =>
    cases hignored : t.kind.isIgnored with
    | true =>
      rw [wordsOf_cons_of_ignored hignored, wordsOf_cons_of_ignored (by rw [← ht.kind, hignored])]
      exact ih
    | false =>
      simp only [wordsOf, hignored, ← ht.kind]
      rw [← hrest.comma_eq]
      exact .cons (ht.kind ▸ ht.word hignored) (hrest.closing rfl rfl) ih
  | gap hgap hgap' _ _ ih =>
    rw [wordsOf_append_of_ignored fun m hm => (isIgnored_of_blank_or_comment (hgap m hm)).1,
      wordsOf_append_of_ignored fun m hm => (isIgnored_of_blank_or_comment (hgap' m hm)).1]
    exact ih

/-- What the grammar makes of words that are alike. -/
theorem Words.document {ws ws' : List Graphql.Word} (h : L.Words ws ws') :
    Document.Alike L.values (Parser.document.run { words := ws }).1 (Parser.document.run { words := ws' }).1 ∧
      List.Forall₂ L.complaints (Parser.document.run { words := ws }).2.complaints
        (Parser.document.run { words := ws' }).2.complaints := by
  obtain ⟨hdocument, hstate⟩ := respects_document { words := ws } { words := ws' } ⟨h, .nil, rfl⟩
  exact ⟨hdocument, hstate.complaints⟩

end Likeness

end GraphqlBuild.Graphql
