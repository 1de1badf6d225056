import GraphqlBuild.Pipeline
import GraphqlBuild.Proofs.Comment
import GraphqlBuild.Proofs.Graphql.Place
import GraphqlBuild.Proofs.LineEnd
import GraphqlBuild.Proofs.Text.Collapse
/-!
# Where a file's error is

The error of a GraphQL file is found in its trimmed text, and that is where its line and column count from.
In the file as it stands the error lies behind the blanks that trimming drops in front, so the place is the
same only if these end no line and move no column (`transformFile_error_place`).
-/

namespace GraphqlBuild

open Graphql

namespace Pipeline

theorem normalizeFile_eq_trim (p : Pipeline) (hp : p.options.normalization.transform = none) {code : Text}
    (hsharp : '#' ∉ code) (hreturn : '\r' ∉ code) : p.normalizeFile code = code.trim := by
  rw [normalizeFile, wholeFile, unixLines_of_notMem hreturn, Normalization.apply,
    Normalization.applied_of_notMem hp fun h => hsharp (Text.mem_of_mem_trim h), Text.trim_trim]

theorem validate_of_transformFile_error {p : Pipeline} {code : Text} {id : Path} {e : FileError}
    (h : p.transformFile code id = .error e) : e.id = id ∧ validate (p.normalizeFile code) = .error e.error := by
  rw [transformFile] at h
  split at h
  · cases hvalid : validate (p.normalizeFile code) with
    | ok => simp [hvalid, Except.mapError, bind, Except.bind, pure, Except.pure] at h
    | error e' =>
      simp only [hvalid, Except.mapError, bind, Except.bind, Except.error.injEq] at h
      subst h
      exact ⟨rfl, rfl⟩
  · cases h

end Pipeline

namespace Graphql.SyntaxError

/-- The same message at the same line and column. -/
structure Agrees (e e' : SyntaxError) : Prop where
  message : e.message = e'.message
  line : e.line = e'.line
  column : e.column = e'.column

theorem lastLine_eq_self {t : Text} (h : '\n' ∉ t) : t.lastLine = t := by
  rw [Text.lastLine, List.rtakeWhile_eq_self_iff]
  intro c hc
  simp only [bne_iff_ne]
  rintro rfl
  exact h hc

/-- The place stays only if nothing stands in front, or no line feed does and the line is another one. -/
theorem behind_agrees_iff {lead : Text} {e : SyntaxError} :
    Agrees (e.behind lead) e ↔ lead = [] ∨ e.line ≠ 1 ∧ '\n' ∉ lead := by
  constructor
  · rintro ⟨-, hline, hcolumn⟩
    have hnone : '\n' ∉ lead := by
      rw [← List.count_eq_zero]
      simpa [behind] using hline
    by_cases hfirst : e.line = 1
    · simp only [behind, if_pos hfirst, lastLine_eq_self hnone] at hcolumn
      refine .inl (by_contra fun hne => ?_)
      have := Text.size_pos hne
      omega
    · exact .inr ⟨hfirst, hnone⟩
  · rintro (rfl | ⟨hfirst, hnone⟩)
    · exact ⟨rfl, rfl, by simp [behind, Text.lastLine]⟩
    · exact ⟨rfl, by simp [behind, List.count_eq_zero.2 hnone], if_neg hfirst⟩

end Graphql.SyntaxError

namespace Pipeline

/-- **The place of a file's error** is moved by the blanks that trimming drops in front of it. -/
theorem transformFile_error_place (p : Pipeline) (hp : p.options.normalization.transform = none) {code : Text}
    (hsharp : '#' ∉ code) (hquote : '"' ∉ code) (hreturn : '\r' ∉ code) {id : Path} {e : FileError}
    (h : p.transformFile code id = .error e) :
    e.id = id ∧ validate code.trim = .error e.error ∧
    ((∀ c ∈ code.leading, isIgnoredBlank c = true) → code.trailing = [] ∨ e.error.IsInside code.trim →
      validate code = .error (e.error.behind code.leading) ∧
      (SyntaxError.Agrees (e.error.behind code.leading) e.error ↔
        code.leading = [] ∨ e.error.line ≠ 1 ∧ '\n' ∉ code.leading)) ∧
    ((∀ c ∈ code.leading, isIgnoredBlank c = true) → (∀ c ∈ code.trim.getLast?, isIgnoredBlank c = false) →
      code.trim.size ≤ e.error.offset →
      ∃ e', validate code = .error e' ∧ code.trim.size + code.leading.size ≤ e'.offset) ∧
    ∀ (lead : Text) (c : Char) (rest : Text), code.leading = lead ++ c :: rest → (∀ b ∈ lead, isIgnoredBlank b = true) →
      isIgnoredBlank c = false →
      validate code = .error (.located (LineIndex.ofText code) (.lexical (.unexpected c), lead.size)) := by
  obtain ⟨hid, hvalid⟩ := validate_of_transformFile_error h
  rw [p.normalizeFile_eq_trim hp hsharp hreturn] at hvalid
  have hparts := code.leading_trim_trailing
  have htrail : ∀ c ∈ code.trailing, isBlank c = true := fun _ => Text.isBlank_of_mem_trailing
  have hsharp' : '#' ∉ code.trim := fun hm => hsharp (Text.mem_of_mem_trim hm)
  have hquote' : '"' ∉ code.trim := fun hm => hquote (Text.mem_of_mem_trim hm)
  refine ⟨hid, hvalid, fun hlead hend => ⟨?_, SyntaxError.behind_agrees_iff⟩, fun hlead hlast hend => ?_,
    fun lead c rest hcode hlead hc => ?_⟩
  · have := validate_between_blanks hlead htrail hquote' hsharp' hvalid hend
    rwa [hparts] at this
  · have := validate_between_blanks_of_end hlead htrail hquote' hsharp' hlast hvalid hend
    rwa [hparts] at this
  · have hblank : isBlank c = true := Text.isBlank_of_mem_leading (t := code) (by simp [hcode])
    have := validate_of_foreign_blank hlead hblank hc (rest ++ (code.trim ++ code.trailing))
    rwa [← List.cons_append, ← List.append_assoc, ← hcode, hparts] at this

theorem transformFile_of_error {p : Pipeline} {code text : Text} (id : Path) {e : SyntaxError}
    (hp : p.options.validate = true) (htext : p.normalizeFile code = text) (h : validate text = .error e) :
    p.transformFile code id = .error ⟨id, e⟩ := by
  rw [transformFile, if_pos hp, htext, h]
  rfl

theorem transformFile_of_valid {p : Pipeline} {code text : Text} (id : Path) (htext : p.normalizeFile code = text)
    (h : validate text = .ok ()) : p.transformFile code id = .ok { code := EsModule.emit text p.style } := by
  rw [transformFile, htext, h]
  split <;> rfl

/-- An error inside the text, with a line feed at both ends of the file. -/
theorem transformFile_error_place_line_feeds :
    let p : Pipeline := { options := Options.default }
    let code : Text := "\n\x7b a ) \x7d\n"
    let e : SyntaxError := ⟨.grammatical (.instead .rightCurly ")"), 4, 1, 5⟩
    p.transformFile code "q.graphql" = .error ⟨"q.graphql", e⟩ ∧
      validate code = .error ⟨.grammatical (.instead .rightCurly ")"), 5, 2, 5⟩ := by
  intro p code e
  have herror : p.transformFile code "q.graphql" = .error ⟨"q.graphql".toList, e⟩ :=
    transformFile_of_error _ rfl (by decide) (validate_of_head? (t := "\x7b a ) \x7d") (by decide +kernel))
  obtain ⟨-, -, hplace, -⟩ := p.transformFile_error_place rfl (by decide) (by decide) (by decide) herror
  have hlast : code.trim.getLast? = some '}' := by decide
  have hinside : e.IsInside code.trim := by
    refine ⟨by decide, ?_, ?_⟩
    · rintro ⟨_, hlexical, _⟩
      cases hlexical
    · rw [hlast]
      rintro _ ⟨⟩
      rfl
  have hlead : code.leading.all isIgnoredBlank = true := by decide
  exact ⟨herror, (hplace (List.all_eq_true.1 hlead) (.inr hinside)).1⟩

/-- With a line feed in front the error is on the second line, and said to be on the first. -/
theorem line_of_transformFile_error_ne :
    let p : Pipeline := { options := Options.default }
    let code : Text := "\n\x7b"
    '#' ∉ code ∧ '"' ∉ code ∧ '\r' ∉ code ∧ ∃ e, p.transformFile code "q.graphql" = .error ⟨"q.graphql", e⟩ ∧
      ¬∃ e', validate code = .error e' ∧ SyntaxError.Agrees e' e := by
  intro p code
  have herror : p.transformFile code "q.graphql" = .error ⟨"q.graphql".toList, ⟨.grammatical .noSelection, 1, 1, 2⟩⟩ :=
    transformFile_of_error _ rfl (by decide) (validate_of_head? (t := "\x7b") (by decide))
  have hvalid : validate code = .error ⟨.grammatical .noSelection, 2, 2, 2⟩ := validate_of_head? (by decide)
  refine ⟨by decide, by decide, by decide, _, herror, ?_⟩
  rintro ⟨e', he', hagrees⟩
  rw [hvalid] at he'
  cases he'
  cases hagrees.line

end Pipeline

end GraphqlBuild
