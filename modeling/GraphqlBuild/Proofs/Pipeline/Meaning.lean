import GraphqlBuild.Document.Parsed
import GraphqlBuild.Pipeline
import GraphqlBuild.Proofs.Comment
import GraphqlBuild.Proofs.Graphql.Alike
import GraphqlBuild.Proofs.Graphql.Collapse
import GraphqlBuild.Proofs.Graphql.Numbered
/-!
# What a literal's new interior means

The new interior of a valid literal is on one line. A comment that is kept then hides all that stood behind it,
so the new interior is as good as the text in front of the first comment (`validate_replacement_iff`).
Without comments it is the same document, but for runs of blanks in its strings: the grammar makes of both the same
document of numbered strings, and each number stands for a token of the one and for that token squeezed in the other
(`parse_normalizeLiteral`).
-/

namespace GraphqlBuild

open Graphql

theorem ParsedDocument.parse_eq_ok_iff {t : Text} {d : ParsedDocument} :
    parse t = .ok d ↔ validate t = .ok () ∧ d = ⟨t, (Document.ofText t).1⟩ := by
  cases hvalid : validate t with
  | ok => simp [parse, hvalid, bind, Except.bind, pure, Except.pure, eq_comm]
  | error e => simp [parse, hvalid, bind, Except.bind]

namespace Pipeline

theorem normalizeLiteral_eq_collapse {p : Pipeline} {t : Text} (h : p.options.normalization.applied t = t) :
    p.normalizeLiteral t = t.collapse := by
  rw [normalizeLiteral, Normalization.apply, h, Text.collapse_trim]

/-! ## Comments that are kept -/

/-- **A literal stays valid** exactly if the text in front of its first comment is valid. -/
theorem validate_replacement_iff (p : Pipeline) (hstrip : p.options.normalization.stripComments = false)
    (htransform : p.options.normalization.transform = none) {e : EmbeddedText} (he : validate e.source = .ok ()) :
    p.replacement? e = some (e, p.normalizeLiteral e.source) ∧
      (validate (p.normalizeLiteral e.source) = .ok () ↔ validate (beforeComment e.source) = .ok ()) := by
  have happlied : p.options.normalization.applied e.source = e.source := by
    rw [Normalization.applied, htransform, hstrip]
    rfl
  have hfault := (validate_eq_ok_iff.1 he).1
  rw [replacement?, normalizeLiteral_eq_collapse happlied]
  exact ⟨by simp [collapse_ne_nil he], (document_collapse hfault).1⟩

/-- A comment behind the document does no harm. -/
theorem validate_replacement_comment_behind :
    let p : Pipeline := { options := ⟨{ normalization := .verbatim }, by decide⟩ }
    let e : EmbeddedText := ⟨"\x7b a\n b \x7d\n# c\n", some "gql", ⟨0, 18⟩, ⟨4, 17⟩, ⟨⟨0, 4⟩, ⟨3, 0⟩⟩⟩
    validate e.source = .ok () ∧ p.replacement? e = some (e, p.normalizeLiteral e.source) ∧
      validate (p.normalizeLiteral e.source) = .ok () := by
  intro p e
  have he : validate e.source = .ok () := problems_eq_nil_iff.1 (by decide)
  have hbefore : validate (beforeComment e.source) = .ok () := problems_eq_nil_iff.1 (by decide)
  obtain ⟨hreplacement, hiff⟩ := p.validate_replacement_iff rfl rfl he
  exact ⟨he, hreplacement, hiff.2 hbefore⟩

/-- A comment between two lines hides the second of them. -/
theorem comment_hides_line :
    let p : Pipeline := { options := ⟨{ normalization := .verbatim }, by decide⟩ }
    let code : Text := "gql`\x7b a # c\n b \x7d`"
    p.options.normalization.stripComments = false ∧ p.options.normalization.transform = none ∧
      ∃ e ∈ p.extractLiterals code, validate e.source = .ok () ∧
        p.replacement? e = some (e, ("\x7b a # c b \x7d" : Text)) ∧ validate "\x7b a # c b \x7d" ≠ .ok () := by
  intro p code
  refine ⟨rfl, rfl, ⟨"\x7b a # c\n b \x7d", some "gql", ⟨0, 17⟩, ⟨4, 16⟩, ⟨⟨0, 4⟩, ⟨1, 4⟩⟩⟩, by decide,
    problems_eq_nil_iff.1 (by decide), by decide, fun h => ?_⟩
  exact absurd (problems_eq_nil_iff.2 h) (by decide +kernel)

/-! ## No comments -/

/-- **The document of a literal** without `#` stays, but for runs of blanks in its strings. Where the document has the
value of a string token, the document of the new interior has the value of that same token squeezed: the string tokens
of the new interior are those of the old one squeezed, and both documents come of one document of numbered strings. -/
theorem parse_normalizeLiteral (p : Pipeline) (htransform : p.options.normalization.transform = none) {t : Text}
    (hsharp : '#' ∉ t) {d : ParsedDocument} (hd : ParsedDocument.parse t = .ok d) :
    ∃ d', ParsedDocument.parse (p.normalizeLiteral t) = .ok d' ∧ d'.node = d.node ∧
      Document.Alike (fun v v' => ∃ x ∈ stringTokens t, v = stringValue x ∧ v' = stringValue x.squeeze) d.ast d'.ast ∧
      ((∀ x ∈ stringTokens t, stringValue x.squeeze = stringValue x) → d'.ast = d.ast ∧ d'.print = d.print) ∧
      stringTokens (p.normalizeLiteral t) = (stringTokens t).map Text.squeeze ∧
      Document.Alike (NumberOf (stringTokens t)) (numberedDocument t) d.ast ∧
      Document.Alike (NumberOf ((stringTokens t).map Text.squeeze)) (numberedDocument t) d'.ast := by
  obtain ⟨hvalid, rfl⟩ := ParsedDocument.parse_eq_ok_iff.1 hd
  have hfault := (validate_eq_ok_iff.1 hvalid).1
  obtain ⟨hiff, halike⟩ := document_collapse hfault
  obtain ⟨-, hcollapse, hwords⟩ := words_collapse hfault
  have hfree : beforeComment t = t := Mode.beforeComment_of_notMem (by simp) hsharp
  rw [hfree] at hiff halike hwords
  rw [normalizeLiteral_eq_collapse (Normalization.applied_of_notMem htransform hsharp)]
  have htokens : stringTokens t.collapse = (stringTokens t).map Text.squeeze := hwords.stringsOf_eq
  refine ⟨_, ParsedDocument.parse_eq_ok_iff.2 ⟨hiff.2 hvalid, rfl⟩, ?_, halike, fun hsame => ?_, htokens,
    document_numbered hfault, htokens ▸ hwords.document_numbered hcollapse⟩
  · simp only [ParsedDocument.node, halike.map_ofDefinition]
  · have hast : (Document.ofText t).1 = (Document.ofText t.collapse).1 := by
      refine halike.eq ?_
      rintro v v' ⟨x, hx, rfl, rfl⟩
      exact (hsame x hx).symm
    simp only [ParsedDocument.print, hast, and_self]

/-- The document of a literal whose string has single spaces in it. -/
theorem parse_normalizeLiteral_single_space :
    let p : Pipeline := { options := Options.default }
    let t : Text := "\x7b\n  f(x: \"a b\")\n\x7d"
    ∃ d d', ParsedDocument.parse t = .ok d ∧ ParsedDocument.parse (p.normalizeLiteral t) = .ok d' ∧
      d'.print = d.print := by
  intro p t
  have hd := ParsedDocument.parse_eq_ok_iff.2 ⟨problems_eq_nil_iff.1 (by decide : problems t = []), rfl⟩
  obtain ⟨d', hd', -, -, hsame, -⟩ := p.parse_normalizeLiteral rfl (by decide) hd
  exact ⟨_, d', hd, hd', (hsame (by decide)).2⟩

/-- Of two spaces in a string one is left. -/
theorem print_normalizeLiteral_ne :
    let p : Pipeline := { options := Options.default }
    let code : Text := "gql`\x7b f(x: \"a  b\") \x7d`"
    p.options.normalization.transform = none ∧ ∃ e ∈ p.extractLiterals code, '#' ∉ e.source ∧
      ∃ d d', ParsedDocument.parse e.source = .ok d ∧ ParsedDocument.parse (p.normalizeLiteral e.source) = .ok d' ∧
        d'.print ≠ d.print := by
  intro p code
  refine ⟨rfl, ⟨"\x7b f(x: \"a  b\") \x7d", some "gql", ⟨0, 21⟩, ⟨4, 20⟩, ⟨⟨0, 4⟩, ⟨0, 20⟩⟩⟩, by decide, by decide,
    _, _, ParsedDocument.parse_eq_ok_iff.2 ⟨problems_eq_nil_iff.1 (by decide), rfl⟩,
    ParsedDocument.parse_eq_ok_iff.2 ⟨problems_eq_nil_iff.1 (by decide +kernel), rfl⟩, by decide +kernel⟩

end Pipeline

end GraphqlBuild
