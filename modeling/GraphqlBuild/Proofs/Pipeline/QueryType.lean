import GraphqlBuild.Proofs.Graphql.Parser.FirstDefinition
import GraphqlBuild.Proofs.Graphql.Spelling
import GraphqlBuild.Proofs.Pipeline.FileModule
import GraphqlBuild.Proofs.Pipeline.Meaning
/-!
# The query type of a valid file

The query type that a pending document announces is that of its first definition once it is parsed
(`queryType_of_transformFile`), unless the text begins with one of `QueryType.covers`: then it is announced as a query,
whatever follows (`queryType_of_transformFile_ne`).
-/

namespace GraphqlBuild

open Graphql EsModule

/-- The first character is a blank that the language ignores only if it is the byte order mark. -/
theorem QueryType.isIgnoredBlank_eq_false {c : Char} (hc : isBlank c = false) (hcovers : c ∉ covers) :
    isIgnoredBlank c = false := by
  by_contra hignored
  simp only [Bool.not_eq_false, isIgnoredBlank, Bool.or_eq_true, beq_iff_eq] at hignored
  rcases hignored with (((rfl | rfl) | rfl) | rfl) | rfl
  · exact absurd hc (by decide)
  · exact absurd hc (by decide)
  · exact absurd hc (by decide)
  · exact absurd hc (by decide)
  · exact hcovers (by decide)

/-- A trimmed text that begins with no comment and no such character begins with nothing that the grammar ignores. -/
theorem QueryType.notIgnored_of_head? {t : Text} (htrim : t.trim = t) (hsharp : t.head? ≠ some '#')
    (hcovers : ∀ c ∈ t.head?, c ∉ covers) : ∀ c ∈ t.head?, isIgnoredBlank c = false ∧ c ≠ '#' ∧ c ≠ ',' := by
  intro c hc
  have hblank : isBlank c = false := Text.isBlank_of_mem_head?_trim (htrim.symm ▸ hc)
  refine ⟨isIgnoredBlank_eq_false hblank (hcovers c hc), ?_, ?_⟩
  · rintro rfl
    exact hsharp hc
  · rintro rfl
    exact hcovers ',' hc (by decide)

/-- A valid text that begins with no such character begins with the word that announces its first definition. -/
theorem QueryType.announces_detect {t : Text} (htrim : t.trim = t) (hsharp : t.head? ≠ some '#')
    (hvalid : validate t = .ok ()) :
    ∃ d more, (Document.ofText t).1 = d :: more ∧ ((∃ c ∈ t.head?, c ∈ covers) → detect t = query) ∧
      ((∀ c ∈ t.head?, c ∉ covers) → (DefinitionNode.ofDefinition d).Announces (detect t)) := by
  obtain ⟨hsound, hcomplaints⟩ := validate_eq_ok_iff.1 hvalid
  have hspelled : Spelled (tokensOf (lexemes t)) t := Lexer.spelled_run hsound begun_ready
  obtain ⟨w, rest, hwords, hfirst⟩ := hspelled.exists_word
  rw [hwords] at hcomplaints
  obtain ⟨hopen, d, more, hd, hannounced⟩ := Parser.exists_first hcomplaints
  have hdocument : (Document.ofText t).1 = d :: more := by
    change (Parser.document.run { words := wordsOf (tokensOf (lexemes t)) }).1 = _
    rw [hwords]
    exact hd
  refine ⟨d, more, hdocument, ?_, fun hcovers => ?_⟩
  · rintro ⟨c, hc, hcovers⟩
    cases t with
    | nil => cases hc
    | cons c' t =>
      cases hc
      exact detect_of_covers hcovers t
  · obtain ⟨after, ht, hspells⟩ := (hfirst (notIgnored_of_head? htrim hsharp hcovers)).resolve_left hopen
    rcases hannounced with hstring | ⟨hkind, type, hopener, hannounces⟩
    · rw [hstring] at hspells
      have hquote : t.head? = some '"' := ht ▸ head?_append_of_some hspells
      exact absurd (by decide) (hcovers '"' hquote)
    · rw [ht, detect_append hopener]
      refine hannounces rfl (hkind.imp_right fun hbrace => ?_)
      rw [hbrace] at hspells
      exact hspells

/-- The first definition, as the outline of the parsed document shows it. -/
theorem PendingDocument.parse_of_valid {t : Text} (htrim : t.trim = t) (hvalid : validate t = .ok ()) {d : Definition}
    {more : Graphql.Document} (hd : (Document.ofText t).1 = d :: more) :
    ∃ parsed, (PendingDocument.ofText t).parse = .ok parsed ∧
      parsed.node.definitions = .ofDefinition d :: more.map .ofDefinition := by
  refine ⟨⟨t, (Document.ofText t).1⟩, ?_, ?_⟩
  · rw [PendingDocument.ofText_of_trim htrim]
    exact ParsedDocument.parse_eq_ok_iff.2 ⟨hvalid, rfl⟩
  · rw [ParsedDocument.node, hd]
    rfl

namespace Pipeline
variable {p : Pipeline} {code : Text} {id : Path} {out : Output}

theorem validate_of_transformFile (hvalidate : p.options.validate = true) (h : p.transformFile code id = .ok out) :
    validate (p.normalizeFile code) = .ok () := by
  cases hvalid : validate (p.normalizeFile code) with
  | ok => rfl
  | error e =>
    rw [transformFile_of_error _ hvalidate rfl hvalid] at h
    cases h

/-- Without a transform a stripped file begins with no comment. -/
theorem head?_normalizeFile_ne (hstrip : p.options.normalization.stripComments = true)
    (htransform : p.options.normalization.transform = none) (code : Text) :
    (p.normalizeFile code).head? ≠ some '#' := by
  have hfree : Uncommented none (p.normalizeFile code) := by
    rw [normalizeFile, Normalization.apply, Normalization.applied_of_none htransform]
    exact (Normalization.uncommented_kept hstrip _).trim
  cases htext : p.normalizeFile code with
  | nil => simp
  | cons c t =>
    rw [htext] at hfree
    intro hc
    exact absurd (hfree.1 (Option.some.inj hc)) (by simp)

/-- **The announced query type is that of the first definition**, if the text begins with no comma, byte order mark or
quotation mark; otherwise it is a query. -/
theorem queryType_of_transformFile (hvalidate : p.options.validate = true)
    (hstrip : p.options.normalization.stripComments = true) (htransform : p.options.normalization.transform = none)
    (h : p.transformFile code id = .ok out) :
    let text := p.normalizeFile code
    let pending := PendingDocument.ofText text
    ∃ d node more, pending.parse = .ok d ∧ d.node.definitions = node :: more ∧
      ((∃ c ∈ text.head?, c ∈ [',', '\ufeff', '"']) → pending.queryType = .query) ∧
      ((∀ c ∈ text.head?, c ∉ [',', '\ufeff', '"']) → node.Announces pending.queryType) ∧
      (p.style = .pending → literals? (parts .pending) out.code =
        some [text.units, pending.queryType.name.units, text.units]) := by
  intro text pending
  have htrim : text.trim = text := p.trim_normalizeFile code
  have hvalid : validate text = .ok () := validate_of_transformFile hvalidate h
  obtain ⟨d, more, hd, hannounces⟩ :=
    QueryType.announces_detect htrim (head?_normalizeFile_ne hstrip htransform code) hvalid
  obtain ⟨parsed, hparsed, hdefinitions⟩ := PendingDocument.parse_of_valid htrim hvalid hd
  have hpending : pending = ⟨text, .detect text⟩ := PendingDocument.ofText_of_trim htrim
  refine ⟨parsed, _, _, hparsed, hdefinitions, ?_, ?_, fun hstyle => ?_⟩
  · rw [hpending]
    exact hannounces.1
  · rw [hpending]
    exact hannounces.2
  · have hrender : pending.render = text := htrim
    rw [eq_emit_of_transformFile h, hstyle, ← hrender]
    exact literals?_ofPending pending

/-- A mutation behind a comment, as a pending module. -/
theorem queryType_of_transformFile_mutation :
    let p : Pipeline := { options := Options.default, style := .pending }
    let code : Text := "# a\n\tmutation M \x7b b \x7d\n"
    let pending := PendingDocument.ofText (p.normalizeFile code)
    ∃ out d node more, p.transformFile code "q.graphql" = .ok out ∧ pending.parse = .ok d ∧
      d.node.definitions = node :: more ∧ node.Announces pending.queryType ∧ pending.queryType = .mutation := by
  intro p code pending
  have hvalid : validate (p.normalizeFile code) = .ok () := problems_eq_nil_iff.1 (by decide)
  have hout := p.transformFile_of_valid "q.graphql" rfl hvalid
  obtain ⟨d, node, more, hd, hnode, -, hannounces, -⟩ := queryType_of_transformFile rfl rfl rfl hout
  have hhead : (p.normalizeFile code).head? = some 'm' := by decide
  refine ⟨_, d, node, more, hout, hd, hnode, hannounces fun c hc => ?_, by decide⟩
  rw [hhead] at hc
  cases hc
  decide

/-- Behind a comma, a byte order mark or a description no keyword is seen, although the grammar sees it: two mutations
and a fragment, announced as queries. -/
theorem queryType_of_transformFile_ne :
    let p : Pipeline := { options := Options.default, style := .pending }
    let files : List (Text × QueryType) :=
      [(", mutation M \x7b a \x7d", .mutation), ("\ufeffmutation M \x7b a \x7d", .mutation),
        ("\"d\" fragment on T \x7b a \x7d", .fragment)]
    ∀ file ∈ files,
      let pending := PendingDocument.ofText (p.normalizeFile file.1)
      (∃ out, p.transformFile file.1 "q.graphql" = .ok out) ∧
        (∃ d node more, pending.parse = .ok d ∧ d.node.definitions = node :: more ∧ node.Announces file.2) ∧
        pending.queryType = .query := by
  intro p files file hfile pending
  have hruns : ∀ file ∈ files, problems (p.normalizeFile file.1) = [] ∧
      (∃ d ∈ (Document.ofText (p.normalizeFile file.1)).1.head?, (DefinitionNode.ofDefinition d).Announces file.2) ∧
      QueryType.detect (p.normalizeFile file.1) = .query := by decide
  obtain ⟨hproblems, ⟨d, hd, hannounces⟩, hquery⟩ := hruns file hfile
  have htrim := p.trim_normalizeFile file.1
  have hvalid := problems_eq_nil_iff.1 hproblems
  obtain ⟨more, hmore⟩ := List.head?_eq_some_iff.1 hd
  obtain ⟨parsed, hparsed, hdefinitions⟩ := PendingDocument.parse_of_valid htrim hvalid hmore
  have hpending : pending = ⟨_, .detect _⟩ := PendingDocument.ofText_of_trim htrim
  refine ⟨⟨_, p.transformFile_of_valid _ rfl hvalid⟩, ⟨parsed, _, _, hparsed, hdefinitions, hannounces⟩, ?_⟩
  rw [hpending]
  exact hquery

end Pipeline

end GraphqlBuild
