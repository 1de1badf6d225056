import GraphqlBuild.Check
import GraphqlBuild.Document.Description
import GraphqlBuild.Proofs.Pipeline.FileModule
import GraphqlBuild.Proofs.Pipeline.Meaning
/-!
# The verdict on a file

A check, the build and the description of a parsed document each prepare the text of a GraphQL file on their own way,
and all end with the same question: is the normalized text valid? So they agree on every file, down to the place of
the error (`verdict_agrees`). The check does not look at the options for more than the normalization.
-/

namespace GraphqlBuild

open Graphql

theorem ParsedDocument.parse_eq_error_iff {t : Text} {e : SyntaxError} :
    parse t = .error e ↔ validate t = .error e := by
  cases hvalid : validate t with
  | ok => simp [parse, hvalid, bind, Except.bind, pure, Except.pure]
  | error e' => simp [parse, hvalid, bind, Except.bind]

namespace PendingDocument
variable {d : PendingDocument} {e : SyntaxError}

theorem describe_eq_error_iff : d.describe true = .error e ↔ validate d.rawText = .error e := by
  rw [← ParsedDocument.parse_eq_error_iff, describe, if_pos rfl, parse, render]
  cases ParsedDocument.parse d.rawText <;> simp [Except.map]

theorem describe_eq_ok_iff : (∃ v, d.describe true = .ok v) ↔ validate d.rawText = .ok () := by
  constructor
  · rintro ⟨v, hv⟩
    cases hvalid : validate d.rawText with
    | ok => rfl
    | error e =>
      rw [describe_eq_error_iff.2 hvalid] at hv
      cases hv
  · intro hvalid
    cases hd : d.describe true with
    | ok v => exact ⟨v, rfl⟩
    | error e =>
      rw [describe_eq_error_iff, hvalid] at hd
      cases hd

end PendingDocument

namespace Pipeline
variable {p q : Pipeline} {code : Text} {id : Path} {e : SyntaxError}

theorem normalizeFile_congr (h : q.options.normalization = p.options.normalization) (code : Text) :
    q.normalizeFile code = p.normalizeFile code := by
  rw [normalizeFile, normalizeFile, h]

/-! ## The check -/

theorem checkText_eq_invalid_iff : p.checkText code = .invalid e ↔ validate (p.normalizeFile code) = .error e := by
  unfold checkText
  cases validate (p.normalizeFile code) <;> simp

theorem checkText_eq_valid_iff : p.checkText code = .valid ↔ validate (p.normalizeFile code) = .ok () := by
  unfold checkText
  cases validate (p.normalizeFile code) <;> simp

theorem verdict_checkFile {w : Workspace} {path : Path} (h : w.read path = .ok code) :
    (p.checkFile w path).verdict = p.checkText code := by
  rw [checkFile, h]

theorem checkFile_congr (h : q.options.normalization = p.options.normalization) (w : Workspace) (path : Path) :
    q.checkFile w path = p.checkFile w path := by
  unfold checkFile
  cases w.read path with
  | ok code => simp only [checkText, normalizeFile_congr h]
  | error failure => rfl

/-! ## The build -/

theorem exists_transformFile_eq_ok_iff (hon : p.options.validate = true) :
    (∃ out, p.transformFile code id = .ok out) ↔ validate (p.normalizeFile code) = .ok () := by
  constructor
  · rintro ⟨out, hout⟩
    cases hvalid : validate (p.normalizeFile code) with
    | ok => rfl
    | error e =>
      rw [transformFile_of_error id hon rfl hvalid] at hout
      cases hout
  · intro hvalid
    cases hout : p.transformFile code id with
    | ok out => exact ⟨out, rfl⟩
    | error e =>
      obtain ⟨-, -, herror⟩ := transformFile_eq_error_iff.1 hout
      rw [hvalid] at herror
      cases herror

/-! ## The description -/

theorem rawText_ofText_normalizeFile (p : Pipeline) (code : Text) :
    (PendingDocument.ofText (p.normalizeFile code)).rawText = p.normalizeFile code := by
  rw [PendingDocument.ofText_of_trim (p.trim_normalizeFile code)]

theorem describe_wholeFile (p : Pipeline) (code : Text) (parsed : Bool) :
    p.describe code .wholeFile parsed = (PendingDocument.ofText (p.normalizeFile code)).describe parsed := by
  rw [describe, documentTexts]
  cases hd : (PendingDocument.ofText (p.normalizeFile code)).describe parsed <;>
    simp [hd, bind, Except.bind, pure, Except.pure]

/-! ## All three -/

/-- **The commands agree** on a GraphQL file that can be read: where the build validates, the check finds it valid
exactly if there is a module, and exactly if its document can be described; otherwise all three have the same error.
The check stays the same where the build does not validate. -/
theorem verdict_agrees (p : Pipeline) (w : Workspace) {path : Path} (hread : w.read path = .ok code) (id : Path)
    (hon : p.options.validate = true) :
    let document := PendingDocument.ofText (p.normalizeFile code)
    (((p.checkFile w path).verdict = .valid ↔ ∃ out, p.transformFile code id = .ok out) ∧
      ((∃ out, p.transformFile code id = .ok out) ↔ ∃ v, document.describe true = .ok v)) ∧
    ((p.checkFile w path).verdict = .valid ∨ ∃ e, (p.checkFile w path).verdict = .invalid e ∧
      p.transformFile code id = .error ⟨id, e⟩ ∧ document.describe true = .error e) ∧
    p.describe code .wholeFile true = document.describe true ∧
    ∀ q : Pipeline, q.options.toDraft = p.options.toDraft.set (.validate false) →
      q.checkFile w path = p.checkFile w path := by
  intro document
  have hraw : document.rawText = p.normalizeFile code := rawText_ofText_normalizeFile p code
  have hcheck : (p.checkFile w path).verdict = p.checkText code := verdict_checkFile hread
  have hbuild : (∃ out, p.transformFile code id = .ok out) ↔ validate (p.normalizeFile code) = .ok () :=
    exists_transformFile_eq_ok_iff hon
  refine ⟨⟨?_, ?_⟩, ?_, p.describe_wholeFile code true, ?_⟩
  · rw [hcheck, checkText_eq_valid_iff, hbuild]
  · rw [hbuild, PendingDocument.describe_eq_ok_iff, hraw]
  · cases hvalid : validate (p.normalizeFile code) with
    | ok => exact .inl (hcheck.trans (checkText_eq_valid_iff.2 hvalid))
    | error e =>
      refine .inr ⟨e, hcheck.trans (checkText_eq_invalid_iff.2 hvalid), ?_, ?_⟩
      · exact transformFile_of_error id hon rfl hvalid
      · exact PendingDocument.describe_eq_error_iff.2 (hraw ▸ hvalid)
  · intro q hq
    have hnormal : q.options.normalization = p.options.normalization := by rw [hq, Draft.set]
    exact checkFile_congr hnormal w path

/-- Blanks in front of an error: all three count from the first character that is left. -/
theorem verdict_agrees_blank_lines :
    let p : Pipeline := { options := Options.default, style := .pending }
    let w : Workspace := { root := .dir [("q.gql", .file (some "\n\x7b a ) \x7d\n".toList))] }
    let e : SyntaxError := ⟨.grammatical (.instead .rightCurly ")"), 4, 1, 5⟩
    w.read "q.gql" = .ok "\n\x7b a ) \x7d\n" ∧ p.options.validate = true ∧
      (p.checkFile w "q.gql").verdict = .invalid e ∧
      p.transformFile "\n\x7b a ) \x7d\n" "q.gql" = .error ⟨"q.gql", e⟩ ∧
      p.describe "\n\x7b a ) \x7d\n" .wholeFile true = .error e := by
  intro p w e
  have hread : w.read "q.gql" = .ok "\n\x7b a ) \x7d\n".toList := by rfl
  have hnormal : p.normalizeFile "\n\x7b a ) \x7d\n" = ("\x7b a ) \x7d" : Text) := by decide
  have hvalid : validate (p.normalizeFile "\n\x7b a ) \x7d\n") = .error e := by
    rw [hnormal]
    exact validate_of_head? (by decide +kernel)
  obtain ⟨-, hverdict, hdescribe, -⟩ := p.verdict_agrees w hread "q.gql" rfl
  have hcheck : (p.checkFile w "q.gql").verdict = .invalid e :=
    (verdict_checkFile hread).trans (checkText_eq_invalid_iff.2 hvalid)
  rw [hcheck] at hverdict
  obtain h | ⟨e', he', hbuild, hdocument⟩ := hverdict
  · exact absurd h (by simp)
  · obtain rfl : e = e' := Verdict.invalid.inj he'
    exact ⟨hread, rfl, hcheck, hbuild, hdescribe.trans hdocument⟩

end Pipeline

end GraphqlBuild
