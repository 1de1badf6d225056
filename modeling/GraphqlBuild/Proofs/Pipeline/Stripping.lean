import GraphqlBuild.Proofs.Graphql.Stripped
import GraphqlBuild.Proofs.Graphql.Trimmed
import GraphqlBuild.Proofs.Pipeline.Meaning
/-!
# Documents without their comments

Stripping does not see strings, so it may cut one short. A valid text is still valid when normalized if on the
last line of each of its strings every `#` has a backslash in front (`Normalization.validate_apply`). In a text
without quotation marks what stripping removes are the comments, and no more: it makes no text valid that was
not, and the document is the same (`ParsedDocument.parse_stripComments`).
-/

namespace GraphqlBuild

open Graphql

/-- **A valid text stays valid** when normalized, if no string is cut on its last line. -/
theorem Normalization.validate_apply {t : Text} (ht : validate t = .ok ())
    (hclosed : ∀ x ∈ stringTokens t, Uncommented none (closingLine x)) :
    validate (({} : Normalization).apply t) = .ok () := by
  have hfault := (validate_eq_ok_iff.1 ht).1
  obtain ⟨hstripped, hwords⟩ := words_stripComments hfault hclosed
  have hvalid : validate (GraphqlBuild.stripComments t) = .ok () := (hwords.validate_iff hfault hstripped).2 ht
  exact (document_trim hstripped).1.2 hvalid

/-- A block string that is cut on its first line, and a comment behind the document. -/
theorem Normalization.validate_apply_block_string :
    let t : Text := "\x7b f(x: \"\"\"a # b\n c \"\"\") \x7d # d"
    validate t = .ok () ∧ (∀ x ∈ stringTokens t, Uncommented none (closingLine x)) ∧
      validate (({} : Normalization).apply t) = .ok () := by
  intro t
  have ht : validate t = .ok () := problems_eq_nil_iff.1 (by decide)
  have hclosed : ∀ x ∈ stringTokens t, Uncommented none (closingLine x) := by decide
  exact ⟨ht, hclosed, Normalization.validate_apply ht hclosed⟩

/-- Of a string with a `#` nothing is left but its beginning. -/
theorem Normalization.validate_apply_ne_ok :
    let t : Text := "\x7b f(x: \"#\") \x7d"
    validate t = .ok () ∧ validate (({} : Normalization).apply t) ≠ .ok () := by
  intro t
  refine ⟨problems_eq_nil_iff.1 (by decide), fun h => ?_⟩
  exact absurd (problems_eq_nil_iff.2 h) (by decide)

/-- **Stripping removes exactly the comments** of a text without quotation marks. -/
theorem ParsedDocument.parse_stripComments {t : Text} (hquote : '"' ∉ t) :
    (validate (stripComments t) = .ok () ↔ validate t = .ok ()) ∧
      ∀ d, ParsedDocument.parse t = .ok d → ∃ d', ParsedDocument.parse (stripComments t) = .ok d' ∧
        d'.node = d.node ∧ d'.ast = d.ast ∧ d'.print = d.print := by
  obtain ⟨hiff, hsame⟩ := document_stripComments hquote
  refine ⟨hiff, fun d hd => ?_⟩
  obtain ⟨hvalid, rfl⟩ := ParsedDocument.parse_eq_ok_iff.1 hd
  refine ⟨_, ParsedDocument.parse_eq_ok_iff.2 ⟨hiff.2 hvalid, rfl⟩, ?_⟩
  have hast := hsame hvalid
  simp only [node, print, hast, and_self]

/-- The comment behind a field goes, the blank in front of it and the line feed stay. -/
theorem ParsedDocument.parse_stripComments_field :
    let t : Text := "\x7b a # b\n c \x7d"
    '"' ∉ t ∧ stripComments t = ("\x7b a \n c \x7d" : Text) ∧
      ∃ d d', ParsedDocument.parse t = .ok d ∧ ParsedDocument.parse (stripComments t) = .ok d' ∧
        d'.node = d.node ∧ d'.ast = d.ast ∧ d'.print = d.print := by
  intro t
  have hquote : '"' ∉ t := by decide
  have hd := ParsedDocument.parse_eq_ok_iff.2 ⟨problems_eq_nil_iff.1 (by decide : problems t = []), rfl⟩
  obtain ⟨d', hd', hsame⟩ := (ParsedDocument.parse_stripComments hquote).2 _ hd
  exact ⟨hquote, by decide, _, d', hd, hd', hsame⟩

end GraphqlBuild
