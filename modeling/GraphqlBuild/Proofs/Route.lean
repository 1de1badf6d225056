import GraphqlBuild.Route
import GraphqlBuild.Proofs.Path
/-!
# Which identities are GraphQL files

An identity is a GraphQL file's exactly if it has no question mark and its extension is one of those asked for, the
case of ASCII letters aside (`SourceMode.route_eq_wholeFile_iff`). The language of a path goes by the same extensions,
but their case counts: routing and language agree on host modules everywhere, and on GraphQL files unless the extension
has a capital letter (`SourceMode.route_agrees_iff`).
-/

namespace GraphqlBuild

theorem Text.eqIgnoringCase_refl (t : Text) : Text.eqIgnoringCase t t = true := beq_self_eq_true _

namespace SourceMode

theorem route_eq_wholeFile_iff {id : Path} {extensions : List Text} : route id extensions = some .wholeFile ↔
    '?' ∉ id ∧ ∃ e, id.extension? = some e ∧ ∃ x ∈ extensions, Text.eqIgnoringCase x e = true := by
  unfold route
  by_cases hquery : '?' ∈ id
  · simp [hquery]
  · rw [if_neg hquery]
    cases he : id.extension? with
    | none => simp [Language.ofPath?, he]
    | some e =>
      by_cases hany : extensions.any (Text.eqIgnoringCase · e) = true
      · simp only [Option.any_some, hany, if_true, true_iff]
        exact ⟨hquery, e, rfl, List.any_eq_true.1 hany⟩
      · simp only [Option.any_some, if_neg hany]
        constructor
        · intro h
          by_cases hhost : (Language.ofPath? id).any Language.requiresExtraction = true
          · simp [hhost] at h
          · simp [hhost] at h
        · rintro ⟨-, e', he', hx⟩
          cases he'
          exact absurd (List.any_eq_true.2 hx) hany

/-- A file's name with the extension behind its last dot is that of a GraphQL file, whatever comes before the dot. -/
theorem route_append {stem extension : Text} {extensions : List Text} (hstem : stem ≠ []) (hslash : '/' ∉ stem)
    (hquery : '?' ∉ stem) (hextension : ∀ c ∈ extension, c ≠ '.' ∧ c ≠ '/' ∧ c ≠ '?') (hne : extension ≠ [])
    (hmem : extension ∈ extensions) : route (stem ++ '.' :: extension) extensions = some .wholeFile := by
  have hdot : '.' ∉ extension := fun hm => (hextension _ hm).1 rfl
  have hname : Path.IsName (stem ++ '.' :: extension) := by
    refine ⟨by simp, ?_, fun heq => ?_, fun heq => ?_⟩
    · simp only [List.mem_append, List.mem_cons, not_or]
      exact ⟨hslash, by decide, fun hm => (hextension _ hm).2.1 rfl⟩
    · have hlength := congrArg List.length heq
      have hpos := List.length_pos_iff.2 hstem
      simp only [List.length_append, List.length_cons, List.length_nil] at hlength
      omega
    · have hlength := congrArg List.length heq
      have hpos := List.length_pos_iff.2 hstem
      have hpos' := List.length_pos_iff.2 hne
      simp only [List.length_append, List.length_cons, List.length_nil] at hlength
      omega
  have hext : Path.extension? (stem ++ '.' :: extension) = some extension := by
    rw [Path.extension?, hname.fileName?_eq, Option.bind_some, Path.extensionOf?_append hstem hdot]
  refine route_eq_wholeFile_iff.2 ⟨?_, extension, hext, extension, hmem, Text.eqIgnoringCase_refl extension⟩
  simp only [List.mem_append, List.mem_cons, not_or]
  exact ⟨hquery, by decide, fun hm => (hextension _ hm).2.2 rfl⟩

end SourceMode

/-! ## Routing and the language of a path -/

namespace Language

theorem ofExtension?_eq_graphql_iff {e : Text} : ofExtension? e = some .graphql ↔ e ∈ defaultExtensions := by
  unfold ofExtension?
  by_cases hgraphql : (["graphql", "gql"] : List Text).contains e = true
  · rw [if_pos hgraphql]
    exact iff_of_true rfl (List.contains_iff_mem.1 hgraphql)
  · rw [if_neg hgraphql]
    refine iff_of_false (fun h => ?_) fun hmem => hgraphql (List.contains_iff_mem.2 hmem)
    split at h
    · cases h
    · split at h <;> cases h

/-- An extension that spells a default one in other letters is that of no language. -/
theorem ofExtension?_of_recased {e x : Text} (hdefault : e ∉ defaultExtensions) (hx : x ∈ defaultExtensions)
    (hcase : Text.eqIgnoringCase x e = true) : ofExtension? e = none := by
  have hhost : ∀ e' ∈ (["ts", "tsx", "js", "jsx", "mjs", "cjs"] : List Text), ∀ x ∈ defaultExtensions,
      Text.eqIgnoringCase x e' = false := by decide
  have hnot : e ∉ (["ts", "tsx", "js", "jsx", "mjs", "cjs"] : List Text) := by
    intro hmem
    rw [hhost e hmem x hx] at hcase
    cases hcase
  simp only [List.mem_cons, List.not_mem_nil, or_false, not_or, defaultExtensions] at hnot hdefault
  simp only [ofExtension?, List.contains_iff_mem, List.mem_cons, List.not_mem_nil, or_false, hnot, hdefault,
    if_false]

end Language

namespace SourceMode

/-- What is done with a file in the language. -/
def ofLanguage (l : Language) : SourceMode := if l.requiresExtraction then .embeddedLiteral else .wholeFile

/-- The extension is a default one but for the case of its letters. -/
def IsRecased (id : Path) : Prop :=
  ∃ e, id.extension? = some e ∧ e ∉ defaultExtensions ∧ ∃ x ∈ defaultExtensions, Text.eqIgnoringCase x e = true

theorem ofPath?_of_isRecased {id : Path} (h : IsRecased id) : Language.ofPath? id = none := by
  obtain ⟨e, he, hdefault, x, hx, hcase⟩ := h
  rw [Language.ofPath?, he, Option.bind_some,
    Language.ofExtension?_of_recased hdefault hx hcase]

section
variable {id : Path} (h : '?' ∉ id)
include h

theorem route_wholeFile_iff : route id defaultExtensions = some .wholeFile ↔
    Language.ofPath? id = some .graphql ∨ IsRecased id := by
  rw [route_eq_wholeFile_iff, and_iff_right h, Language.ofPath?, IsRecased]
  simp only [Option.bind_eq_some_iff, Language.ofExtension?_eq_graphql_iff, ← exists_or, ← and_or_left]
  refine exists_congr fun e => and_congr_right fun _ => ?_
  by_cases hdefault : e ∈ defaultExtensions
  · simp only [hdefault, true_or, iff_true]
    exact ⟨e, hdefault, Text.eqIgnoringCase_refl e⟩
  · simp [hdefault]

theorem route_embeddedLiteral_iff : route id defaultExtensions = some .embeddedLiteral ↔
    (Language.ofPath? id).any Language.requiresExtraction = true := by
  by_cases hwhole : route id defaultExtensions = some .wholeFile
  · rw [hwhole]
    refine iff_of_false (by simp) ?_
    rcases (route_wholeFile_iff h).1 hwhole with hlanguage | hrecased
    · simp [hlanguage, Language.requiresExtraction]
    · simp [ofPath?_of_isRecased hrecased]
  · unfold route at hwhole ⊢
    rw [if_neg h] at hwhole ⊢
    split at hwhole
    · exact absurd rfl hwhole
    · rename_i hany
      rw [if_neg hany]
      split <;> simp_all

end

/-- **Routing agrees with the language of the path** but for an extension of GraphQL files in capital letters: such a
file is a document to the one and in no language to the other. -/
theorem route_agrees_iff {id : Path} (h : '?' ∉ id) :
    (route id defaultExtensions = (Language.ofPath? id).map ofLanguage ↔ ¬ IsRecased id) ∧
    (route id defaultExtensions = some .wholeFile ↔ Language.ofPath? id = some .graphql ∨ IsRecased id) ∧
    (route id defaultExtensions = some .embeddedLiteral ↔
      (Language.ofPath? id).any Language.requiresExtraction = true) ∧
    (route id defaultExtensions = none ↔ Language.ofPath? id = none ∧ ¬ IsRecased id) ∧
    (IsRecased id → Language.ofPath? id = none) := by
  have hwhole := route_wholeFile_iff h
  have hembedded := route_embeddedLiteral_iff h
  by_cases hrecased : IsRecased id
  · have hlanguage := ofPath?_of_isRecased hrecased
    have hroute := hwhole.2 (.inr hrecased)
    simp [hroute, hlanguage, hrecased]
  · simp only [hrecased, or_false, not_false_eq_true, and_true, iff_true] at hwhole ⊢
    have hagree : route id defaultExtensions = (Language.ofPath? id).map ofLanguage := by
      cases hlanguage : Language.ofPath? id with
      | none =>
        cases hroute : route id defaultExtensions with
        | none => rfl
        | some mode => cases mode <;> simp_all
      | some l => cases l <;> simp_all [ofLanguage, Language.requiresExtraction]
    refine ⟨hagree, hwhole, hembedded, ?_, False.elim⟩
    rw [hagree, Option.map_eq_none_iff]

/-- A final slash and dot say nothing, so this is a file with the extension `GQL`. -/
theorem route_agrees_iff_capitals :
    '?' ∉ "pkg/v1.2/Schema.GQL/.".toList ∧ IsRecased "pkg/v1.2/Schema.GQL/.".toList ∧
      route "pkg/v1.2/Schema.GQL/." defaultExtensions = some .wholeFile ∧
      Language.ofPath? "pkg/v1.2/Schema.GQL/." = none := by
  have hquery : '?' ∉ "pkg/v1.2/Schema.GQL/.".toList := by decide
  have hrecased : IsRecased "pkg/v1.2/Schema.GQL/.".toList := ⟨"GQL", by decide, by decide, "gql", by decide, by decide⟩
  obtain ⟨-, hwhole, -, -, hlanguage⟩ := route_agrees_iff hquery
  exact ⟨hquery, hrecased, hwhole.2 (.inr hrecased), hlanguage hrecased⟩

/-- A file is routed as a document though its path is in no language. -/
theorem route_capitals_ne : '?' ∉ "Q.GRAPHQL".toList ∧
    ¬ (route "Q.GRAPHQL" defaultExtensions = some .wholeFile ↔ Language.ofPath? "Q.GRAPHQL" = some .graphql) ∧
    ¬ (route "Q.GRAPHQL" defaultExtensions = none ↔ Language.ofPath? "Q.GRAPHQL" = none) := by decide

end SourceMode

end GraphqlBuild
