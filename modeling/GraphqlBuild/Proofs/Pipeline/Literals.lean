import GraphqlBuild.Pipeline
import GraphqlBuild.Proofs.Literal.NewBodies
import GraphqlBuild.Proofs.Normalize
/-!
# What happens to a host module

The new module is the old one cut at the interiors of its literals, with the new interiors in their
places and every gap as it was (`transformLiterals_eq_interpolate`). If the transform brings no backtick in,
the new module has the same literals again, in the same order and with the same tags, around the new
interiors (`extractLiterals_transformLiterals`).
-/

namespace GraphqlBuild

theorem Options.isIdentifier_of_mem_tags (o : Options) : ∀ t ∈ o.tags, isIdentifier t = true := by
  have hfault := o.fault?_eq_none
  unfold Draft.fault? at hfault
  split at hfault
  · cases hfault
  · split at hfault
    · cases hfault
    · rename_i hfind
      intro t ht
      simpa using List.find?_eq_none.1 hfind t ht

namespace Pipeline

/-- What stands between a literal's backticks in the end: the normalized interior, or the interior itself
if it would become empty. -/
def newInterior (p : Pipeline) (interior : Text) : Text :=
  if (p.normalizeLiteral interior).isEmpty then interior else p.normalizeLiteral interior

/-- The new interior, if an edit has to put it there. -/
def edited? (p : Pipeline) (interior : Text) : Option Text :=
  if (p.normalizeLiteral interior).isEmpty || p.normalizeLiteral interior == interior then none
  else some (p.normalizeLiteral interior)

theorem getD_edited? (p : Pipeline) (interior : Text) :
    (p.edited? interior).getD interior = p.newInterior interior := by
  unfold edited? newInterior
  cases hempty : (p.normalizeLiteral interior).isEmpty with
  | true => simp
  | false =>
    by_cases hsame : p.normalizeLiteral interior = interior
    · simp [hsame]
    · simp [hsame]

theorem newInterior_ne_nil (p : Pipeline) {interior : Text} (h : interior ≠ []) :
    p.newInterior interior ≠ [] := by
  unfold newInterior
  split
  · exact h
  · rename_i hempty
    simpa using hempty

/-- The edits that are left once literals without a new text and edits without effect are dropped. -/
theorem spliceLiterals_filterMap (p : Pipeline) {code : Text} {es : List EmbeddedText}
    (h : ∀ e ∈ es, e.interior.slice? code = some e.source) :
    spliceLiterals code (es.filterMap p.replacement?) =
      applyEdits code (es.filterMap fun e => (p.edited? e.source).map (Edit.mk e.interior)) := by
  unfold spliceLiterals
  simp only [List.map_filterMap, List.filter_filterMap]
  congr 1
  refine List.filterMap_congr fun e he => ?_
  unfold replacement? edited?
  cases hempty : (p.normalizeLiteral e.source).isEmpty with
  | true => simp [hempty]
  | false =>
    by_cases hsame : p.normalizeLiteral e.source = e.source
    · have hnoop : Edit.isNoop ⟨e.interior, e.source⟩ code = true := by simp [Edit.isNoop, h e he]
      simp [hsame, hnoop]
    · have hnoop : Edit.isNoop ⟨e.interior, p.normalizeLiteral e.source⟩ code = false := by
        simpa [Edit.isNoop, h e he] using Ne.symm hsame
      simp [hempty, hsame, hnoop]

theorem exists_gapsOf_extractLiterals (p : Pipeline) (code : Text) :
    ∃ gaps, Literal.GapsOf 0 (p.extractLiterals code)
      (fun r => [backtick].intercalate (Literal.renew p.options.tags r (List.splitOn backtick code))) gaps := by
  rw [extractLiterals, Literal.taggedLiterals_eq_found p.options.isIdentifier_of_mem_tags]
  exact Literal.exists_gapsOf p.options.tags (LineIndex.ofText code) 0 (List.splitOn backtick code)

/-- Around the old interiors the gaps make the old module. -/
theorem eq_interpolate_of_gapsOf {p : Pipeline} {code : Text} {gaps : List Text}
    (h : Literal.GapsOf 0 (p.extractLiterals code)
      (fun r => [backtick].intercalate (Literal.renew p.options.tags r (List.splitOn backtick code))) gaps) :
    code = interpolate gaps ((p.extractLiterals code).map (·.source)) := by
  have hcode := h.text_eq id
  rwa [Literal.renew_id, List.intercalate_splitOn] at hcode

/-- The edits put the new interiors into the old gaps. -/
theorem spliceLiterals_extractLiterals (p : Pipeline) (code : Text) :
    spliceLiterals code ((p.extractLiterals code).filterMap p.replacement?) =
      [backtick].intercalate (Literal.renew p.options.tags p.newInterior (List.splitOn backtick code)) := by
  have hslice : ∀ e ∈ p.extractLiterals code, e.interior.slice? code = some e.source := fun e he =>
    (Literal.liesIn_of_mem_taggedLiterals p.options.isIdentifier_of_mem_tags he).interior
  have hne : ∀ e ∈ p.extractLiterals code, e.source ≠ [] := fun e he =>
    Literal.source_ne_nil_of_mem_taggedLiterals p.options.isIdentifier_of_mem_tags he
  obtain ⟨gaps, hgaps⟩ := p.exists_gapsOf_extractLiterals code
  have hedits := applyEdits_interpolate (·.interior) (·.source) (fun e => p.edited? e.source)
    hgaps.length_eq hgaps.interiors hne
  rw [← eq_interpolate_of_gapsOf hgaps] at hedits
  rw [spliceLiterals_filterMap p hslice, hedits, hgaps.text_eq]
  simp only [getD_edited?]

theorem transformLiterals_eq_none_iff (p : Pipeline) (code : Text) :
    p.transformLiterals code = none ↔ p.extractLiterals code = [] := by
  unfold transformLiterals
  cases p.extractLiterals code <;> simp

theorem transformLiterals_eq_some (p : Pipeline) {code : Text} (h : p.extractLiterals code ≠ []) :
    p.transformLiterals code = some
      { code := [backtick].intercalate
          (Literal.renew p.options.tags p.newInterior (List.splitOn backtick code)) } := by
  rw [← p.spliceLiterals_extractLiterals code, transformLiterals]
  split
  · rename_i hnil
    exact absurd hnil h
  · rfl

/-- The new module, piece by piece. -/
theorem code_of_transformLiterals {p : Pipeline} {code : Text} {out : Output}
    (h : p.transformLiterals code = some out) :
    out.code =
      [backtick].intercalate (Literal.renew p.options.tags p.newInterior (List.splitOn backtick code)) := by
  have hne : p.extractLiterals code ≠ [] := by
    intro hnil
    rw [(p.transformLiterals_eq_none_iff code).2 hnil] at h
    cases h
  rw [p.transformLiterals_eq_some hne] at h
  cases h
  rfl

/-- **The new interiors in the old gaps.** Nothing but the interiors of the literals is replaced. -/
theorem transformLiterals_eq_interpolate (p : Pipeline) (code : Text) :
    (p.transformLiterals code = none ↔ p.extractLiterals code = []) ∧
      ∃ gaps : List Text, gaps.length = (p.extractLiterals code).length + 1 ∧
        code = interpolate gaps ((p.extractLiterals code).map (·.source)) ∧
        (p.extractLiterals code).map (·.interior) =
          innerSpans 0 gaps ((p.extractLiterals code).map (·.source)) ∧
        (p.extractLiterals code ≠ [] → p.transformLiterals code =
          some { code := interpolate gaps ((p.extractLiterals code).map fun e => p.newInterior e.source) }) := by
  obtain ⟨gaps, hgaps⟩ := p.exists_gapsOf_extractLiterals code
  refine ⟨p.transformLiterals_eq_none_iff code, gaps, hgaps.length_eq, eq_interpolate_of_gapsOf hgaps,
    hgaps.interiors, fun h => ?_⟩
  rw [p.transformLiterals_eq_some h, hgaps.text_eq]

/-! ## The literals of the new module -/

theorem backtick_notMem_newInterior {p : Pipeline} (hspares : p.options.normalization.Spares backtick)
    {interior : Text} (h : backtick ∉ interior) : backtick ∉ p.newInterior interior := by
  unfold newInterior
  split
  · exact h
  · intro hm
    rcases Text.mem_of_mem_collapse hm with heq | hm
    · exact absurd heq (by decide)
    · exact Normalization.notMem_apply hspares h hm

/-- **Lock step.** The new module has the literals of the old one again, around the new interiors. -/
theorem extractLiterals_transformLiterals (p : Pipeline)
    (hspares : p.options.normalization.Spares backtick) {code : Text} {out : Output}
    (h : p.transformLiterals code = some out) :
    (p.extractLiterals out.code).map (fun e => (e.tag, e.source)) =
      (p.extractLiterals code).map fun e => (e.tag, p.newInterior e.source) := by
  have hpieces := Literal.backtick_notMem_of_mem_splitOn code
  have hsplit : List.splitOn backtick out.code =
      Literal.renew p.options.tags p.newInterior (List.splitOn backtick code) := by
    rw [code_of_transformLiterals h]
    refine List.splitOn_intercalate backtick (fun s hs => ?_) ?_
    · exact Literal.backtick_notMem_of_mem_renew (fun t => backtick_notMem_newInterior hspares) hpieces hs
    · rw [← List.length_pos_iff, Literal.length_renew, List.length_pos_iff]
      exact List.splitOn_ne_nil backtick code
  have hfound := Literal.found_renew p.options.tags (fun t => p.newInterior_ne_nil) 0 0
    (List.splitOn backtick code)
  rw [extractLiterals, extractLiterals, Literal.taggedLiterals_eq_found p.options.isIdentifier_of_mem_tags,
    Literal.taggedLiterals_eq_found p.options.isIdentifier_of_mem_tags, hsplit]
  have htagged := congrArg (List.map fun f : Text × Text => (some f.1, f.2)) hfound
  simpa [Literal.Found.embedded, Function.comp_def] using htagged

/-- A literal that holds a comment only stays, and one of another identifier is passed over as before. -/
theorem extractLiterals_transformLiterals_collapse :
    let p : Pipeline := { options := ⟨{ normalization := ⟨true, some Text.collapse⟩ }, by decide⟩ }
    let code : Text := "gql` a  b ` + gql`# c` + mygql` d ` + gql`e`"
    let out : Output := { code := "gql`a b` + gql`# c` + mygql` d ` + gql`e`" }
    p.options.normalization.Spares backtick ∧ p.transformLiterals code = some out ∧
      (p.extractLiterals out.code).map (fun e => (e.tag, e.source)) =
        ([(some "gql", "a b"), (some "gql", "# c"), (some "gql", "e")] : List (Option Text × Text)) := by
  intro p code out
  have hspares : p.options.normalization.Spares backtick := by
    intro f hf t ht hm
    obtain rfl := Option.some.inj hf
    rcases Text.mem_of_mem_collapse hm with heq | hm
    · exact absurd heq (by decide)
    · exact ht hm
  have htransform : p.transformLiterals code = some out := by decide
  refine ⟨hspares, htransform, ?_⟩
  rw [extractLiterals_transformLiterals p hspares htransform]
  decide

end Pipeline

end GraphqlBuild
