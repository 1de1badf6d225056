import GraphqlBuild.Proofs.EsModule.Reading
import GraphqlBuild.Proofs.Pipeline.ErrorPlace
/-!
# The module of a GraphQL file

A file has no module exactly if validation is on and its normalized text has an error, and then the first
error is reported. The module it has carries the normalized text, in either style
(`transformFile_outcome`): pending documents trim their text once more, but that is trimmed already.
-/

namespace GraphqlBuild

open Graphql EsModule

theorem PendingDocument.ofText_of_trim {t : Text} (h : t.trim = t) : ofText t = ⟨t, .detect t⟩ := by
  rw [ofText, materialize, h]
  rfl

namespace Pipeline
variable {p : Pipeline} {code : Text} {id : Path}

theorem trim_normalizeFile (p : Pipeline) (code : Text) : (p.normalizeFile code).trim = p.normalizeFile code :=
  Text.trim_trim _

theorem transformFile_eq_error_iff {e : FileError} : p.transformFile code id = .error e ↔
    p.options.validate = true ∧ e.id = id ∧ validate (p.normalizeFile code) = .error e.error := by
  constructor
  · intro h
    refine ⟨?_, validate_of_transformFile_error h⟩
    by_contra hoff
    rw [transformFile, if_neg hoff] at h
    cases h
  · rintro ⟨hon, rfl, hvalid⟩
    exact transformFile_of_error _ hon rfl hvalid

theorem eq_emit_of_transformFile {out : Output} (h : p.transformFile code id = .ok out) :
    out = { code := EsModule.emit (p.normalizeFile code) p.style } := by
  unfold transformFile at h
  split at h
  · cases hvalid : validate (p.normalizeFile code) with
    | ok => simpa [hvalid, Except.mapError, bind, Except.bind, pure, Except.pure, eq_comm] using h
    | error e => simp [hvalid, Except.mapError, bind, Except.bind] at h
  · cases h
    rfl

/-- **The outcome of a GraphQL file**: its first error if it is validated and has one, and else a module whose string
literals are the normalized text. -/
theorem transformFile_outcome (p : Pipeline) (code : Text) (id : Path) :
    ((∃ e, p.transformFile code id = .error e) ↔
        p.options.validate = true ∧ ∃ e, validate (p.normalizeFile code) = .error e) ∧
      (∀ e, p.transformFile code id = .error e → e.id = id ∧
        (syntaxErrors (p.normalizeFile code)).head? = some e.error ∧
        ∀ style, { p with style }.transformFile code id = .error e) ∧
      ((¬∃ e, p.transformFile code id = .error e) → ∃ out, p.transformFile code id = .ok out ∧ out.map = none ∧
        (p.style = .parse → literals? (parts .parse) out.code = some [(p.normalizeFile code).units]) ∧
        (p.style = .pending → literals? (parts .pending) out.code =
          some [(p.normalizeFile code).units, (QueryType.detect (p.normalizeFile code)).name.units,
            (p.normalizeFile code).units])) := by
  refine ⟨⟨?_, ?_⟩, fun e he => ?_, fun hnone => ?_⟩
  · rintro ⟨e, he⟩
    obtain ⟨hon, -, hvalid⟩ := transformFile_eq_error_iff.1 he
    exact ⟨hon, _, hvalid⟩
  · rintro ⟨hon, e, hvalid⟩
    exact ⟨⟨id, e⟩, transformFile_eq_error_iff.2 ⟨hon, rfl, hvalid⟩⟩
  · obtain ⟨hon, hid, hvalid⟩ := transformFile_eq_error_iff.1 he
    exact ⟨hid, head?_of_validate hvalid, fun style => transformFile_eq_error_iff.2 ⟨hon, hid, hvalid⟩⟩
  · cases hout : p.transformFile code id with
    | error e => exact absurd ⟨e, hout⟩ hnone
    | ok out =>
      obtain rfl := eq_emit_of_transformFile hout
      refine ⟨_, rfl, rfl, fun hstyle => ?_, fun hstyle => ?_⟩
      · simp only [hstyle, emit, literals?_ofText]
      · simp only [hstyle, emit, literals?_ofPending, PendingDocument.ofText_of_trim (p.trim_normalizeFile code),
          PendingDocument.render]

end Pipeline

end GraphqlBuild
