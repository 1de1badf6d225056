import GraphqlBuild.Pipeline
import GraphqlBuild.Proofs.Normalize
import GraphqlBuild.Proofs.Pipeline.ErrorPlace
import GraphqlBuild.Proofs.Text.Collapse
/-!
# Line endings

Without a transform, carriage returns in front of line feeds change nothing (`outcome_of_addsReturns`). A GraphQL
file drops them before anything else. A literal keeps them: either character ends a comment, so stripping leaves
two texts that again differ in such returns only (`Text.AddsReturns.stripCommentsFrom`), and the two characters
stand in one run of blanks.
-/

namespace GraphqlBuild

open Graphql

/-- The second text is the first with a carriage return in front of some of its line feeds. -/
inductive Text.AddsReturns : Text → Text → Prop
  | nil : AddsReturns [] []
  | same {t t' : Text} (c : Char) : AddsReturns t t' → AddsReturns (c :: t) (c :: t')
  | returned {t t' : Text} : AddsReturns t t' → AddsReturns ('\n' :: t) ('\r' :: '\n' :: t')

namespace Text.AddsReturns
variable {t t' : Text}

theorem unixLines_eq (h : t.AddsReturns t') (ht : '\r' ∉ t) : unixLines t' = t := by
  induction h with
  | nil => rfl
  | same c _ ih =>
    obtain ⟨hc, ht⟩ := not_or.1 (mt List.mem_cons.2 ht)
    rw [unixLines, ih ht]
    rintro _ rfl
    exact absurd rfl hc
  | returned _ ih =>
    obtain ⟨-, ht⟩ := not_or.1 (mt List.mem_cons.2 ht)
    rw [unixLines, ih ht]

theorem refl (t : Text) : t.AddsReturns t := by
  induction t with
  | nil => exact .nil
  | cons c t ih => exact .same c ih

/-- Inside a comment the return ends it in place of the line feed, which then stays as itself. -/
theorem stripCommentsFrom (h : t.AddsReturns t') (inComment : Bool) (previous : Option Char) :
    (GraphqlBuild.stripCommentsFrom inComment previous t).AddsReturns
      (GraphqlBuild.stripCommentsFrom inComment previous t') := by
  induction h generalizing inComment previous with
  | nil => exact .nil
  | same c _ ih =>
    rw [GraphqlBuild.stripCommentsFrom, GraphqlBuild.stripCommentsFrom]
    split_ifs
    · exact .same c (ih false (some c))
    · exact ih true (some c)
    · exact ih true (some c)
    · exact .same c (ih false (some c))
  | returned _ ih =>
    -- whatever state the two scans meet the line end in, the feed is the character behind them now
    have hfeed := AddsReturns.returned (ih false (some '\n'))
    cases inComment <;> simpa [GraphqlBuild.stripCommentsFrom] using hfeed

/-- By induction for any text in front: a return ends a word just as the line feed behind it does. -/
theorem words_eq (h : t.AddsReturns t') : words t' = words t := by
  suffices ∀ s : Text, words (s ++ t') = words (s ++ t) from this []
  induction h with
  | nil => exact fun s => rfl
  | @same t t' c _ ih =>
    intro s
    rw [List.append_cons, List.append_cons s c t]
    exact ih (s ++ [c])
  | @returned t t' _ ih =>
    intro s
    have hrest : words t' = words t := ih []
    rw [words_append_cons (by decide), words_append_cons (by decide), words_cons_of_blank (by decide), hrest]

end Text.AddsReturns

theorem Normalization.addsReturns_applied {n : Normalization} (hn : n.transform = none) {t t' : Text}
    (h : t.AddsReturns t') : (n.applied t).AddsReturns (n.applied t') := by
  rw [applied_of_none hn, applied_of_none hn, kept, kept]
  split
  · exact h.stripCommentsFrom false none
  · exact h

namespace Pipeline
variable {p : Pipeline} {t t' : Text}

theorem normalizeFile_of_addsReturns (ht : '\r' ∉ t) (h : t.AddsReturns t') :
    p.normalizeFile t' = p.normalizeFile t := by
  rw [normalizeFile, normalizeFile, h.unixLines_eq ht, (Text.AddsReturns.refl t).unixLines_eq ht]

theorem normalizeLiteral_of_addsReturns (htransform : p.options.normalization.transform = none)
    (h : t.AddsReturns t') : p.normalizeLiteral t' = p.normalizeLiteral t := by
  have hwords := (Normalization.addsReturns_applied htransform h).words_eq
  rw [normalizeLiteral, normalizeLiteral, Normalization.apply, Normalization.apply, Text.collapse_trim,
    Text.collapse_trim, Text.collapse, Text.collapse, hwords]

/-- **Line endings do not matter**: a text without carriage returns and the same text with returns in front of some
of its line feeds make the same module or the same error, and the same interior of a literal. -/
theorem outcome_of_addsReturns (htransform : p.options.normalization.transform = none) (ht : '\r' ∉ t)
    (h : t.AddsReturns t') :
    (∀ id, p.transformFile t' id = p.transformFile t id) ∧ p.normalizeLiteral t' = p.normalizeLiteral t := by
  refine ⟨fun id => ?_, normalizeLiteral_of_addsReturns htransform h⟩
  simp only [transformFile, normalizeFile_of_addsReturns ht h]

/-- One of three line feeds is preceded by a return: it ends a comment, which the literal loses too. A return behind a
comment in front of an error moves neither the error's line nor its column. -/
theorem outcome_of_addsReturns_comment :
    let p : Pipeline := { options := ⟨{}, by decide⟩, style := .pending }
    let t : Text := "\x7b # a\n  b\n  c \x7d\n"
    let t' : Text := "\x7b # a\r\n  b\n  c \x7d\n"
    let m : Text := "import \x7b parse \x7d from \"graphql\";\n\n" ++
      "const documentNode = parse(\"\x7b \\n  b\\n  c \x7d\");\n\n" ++
      "export default documentNode;\nexport \x7b documentNode \x7d;"
    let u : Text := "# a\n\x7b b\n  ( \x7d\n"
    let u' : Text := "# a\r\n\x7b b\n  ( \x7d\n"
    ((∀ id, p.transformFile t' id = p.transformFile t id) ∧ p.normalizeLiteral t' = p.normalizeLiteral t ∧
      p.normalizeLiteral t = ("\x7b b c \x7d" : Text)) ∧
    ({ p with style := .parse } : Pipeline).transformFile t' "q.graphql" = .ok { code := m } ∧
    (∀ id, p.transformFile u' id = p.transformFile u id) ∧
      p.transformFile u' "q.graphql" = .error ⟨"q.graphql", ⟨.grammatical .noArgument, 8, 2, 5⟩⟩ := by
  intro p t t' m u u'
  have hadds : t.AddsReturns t' :=
    .same '{' (.same ' ' (.same '#' (.same ' ' (.same 'a' (.returned (.refl _))))))
  have hadds' : u.AddsReturns u' := .same '#' (.same ' ' (.same 'a' (.returned (.refl _))))
  obtain ⟨hfile, hliteral⟩ := outcome_of_addsReturns (p := p) rfl (by decide) hadds
  obtain ⟨hfile', -⟩ := outcome_of_addsReturns (p := p) rfl (by decide) hadds'
  have hmodule : ({ p with style := .parse } : Pipeline).transformFile t' "q.graphql" =
      .ok { code := EsModule.emit "\x7b \n  b\n  c \x7d" .parse } :=
    transformFile_of_valid _ (by decide) (problems_eq_nil_iff.1 (by decide))
  have htext : EsModule.emit "\x7b \n  b\n  c \x7d" .parse = m := by decide +kernel
  have herror : p.transformFile u' "q.graphql" = .error ⟨"q.graphql".toList, ⟨.grammatical .noArgument, 8, 2, 5⟩⟩ :=
    transformFile_of_error _ rfl (by decide) (validate_of_head? (t := "\x7b b\n  ( \x7d") (by decide +kernel))
  exact ⟨⟨hfile, hliteral, by decide⟩, htext ▸ hmodule, hfile', herror⟩

end Pipeline

end GraphqlBuild
