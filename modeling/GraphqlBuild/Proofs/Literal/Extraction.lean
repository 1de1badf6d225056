import GraphqlBuild.Proofs.Literal.Walk
/-!
# What extraction reports

With identifiers for tags, the literals of a source are those of the walk over its backticks, each lies in
the source where its spans and its positions say, and a list of the same tags in any order, with any
repetitions, finds the same literals (`extract_embeddedLiteral`).
-/

namespace GraphqlBuild

/-- The spans of a literal, its tag and its positions fit the source that it was found in. -/
structure EmbeddedText.LiesIn (e : EmbeddedText) (source : Text) : Prop where
  interior : e.interior.slice? source = some e.source
  literal : ∃ tag, e.tag = some tag ∧
    e.literal.slice? source = some (tag ++ backtick :: (e.source ++ [backtick]))
  surrounding : (e.surrounding source).1 ++ e.source ++ (e.surrounding source).2 = source
  range : e.range =
    ⟨.behind (e.surrounding source).1, .behind ((e.surrounding source).1 ++ e.source)⟩

namespace Literal

theorem backtick_notMem_of_mem_splitOn (source : Text) :
    ∀ s ∈ List.splitOn backtick source, backtick ∉ s := by
  induction source with
  | nil => simp
  | cons c source ih =>
    intro s h
    obtain ⟨first, rest, hsplit⟩ := List.exists_cons_of_ne_nil (List.splitOn_ne_nil backtick source)
    rw [List.splitOn_cons_eq_if_modifyHead, hsplit] at h
    rw [hsplit] at ih
    split at h
    · rcases List.mem_cons.1 h with rfl | h
      · simp
      · exact ih s h
    · rename_i hc
      rcases List.mem_cons.1 h with rfl | h
      · have hfirst := ih first List.mem_cons_self
        simp only [List.mem_cons, not_or]
        exact ⟨fun heq => hc (by simp [heq]), hfirst⟩
      · exact ih s (List.mem_cons_of_mem _ h)

section
variable {tags : List Text} (htags : ∀ t ∈ tags, isIdentifier t = true)
include htags

theorem taggedLiterals_eq_found (source : Text) :
    taggedLiterals tags source =
      (found tags 0 (List.splitOn backtick source)).map (Found.embedded (LineIndex.ofText source)) := by
  have hscan := scan_intercalate htags (backtick_notMem_of_mem_splitOn source) none rfl 0
  rw [List.intercalate_splitOn] at hscan
  rw [taggedLiterals, hscan]

theorem taggedLiterals_eq_walk (source : Text) :
    taggedLiterals tags source = walk tags source (backticks source) := by
  have hwalk := walk_backticksFrom tags source [] 0 (backtick_notMem_of_mem_splitOn source) rfl
    (by rw [List.intercalate_splitOn]; rfl) rfl
  rw [List.intercalate_splitOn] at hwalk
  rw [taggedLiterals_eq_found htags]
  exact hwalk.symm

end

/-- Where the walk over the pieces has found a literal, its tag, its body and the backticks stand. -/
theorem exists_of_mem_found {tags pieces : List Text} {offset : Nat} {f : Found}
    (h : f ∈ found tags offset pieces) :
    ∃ before after : Text, [backtick].intercalate pieces =
        before ++ (f.tag ++ backtick :: (f.body ++ backtick :: after)) ∧
      f.offset = offset + before.size := by
  fun_induction found tags offset pieces with
  | case1 offset s body next rest htaken ih =>
    rcases List.mem_append.1 h with h | h
    · split at h
      · obtain rfl := List.mem_singleton.1 h
        obtain ⟨before, hbefore⟩ := run_suffix s
        have hsize : s.size = Text.size before + (run s).size := by rw [← Text.size_append, hbefore]
        refine ⟨before, [backtick].intercalate (next :: rest), ?_, ?_⟩
        · simp only [intercalate_cons_backtick, ← List.append_assoc, hbefore]
        · simp only [hsize]
          omega
      · cases h
    · obtain ⟨before, after, heq, hoffset⟩ := ih h
      refine ⟨s ++ backtick :: (body ++ backtick :: before), after, ?_, ?_⟩
      · simp [heq]
      · simp [hoffset, size_backtick]
        omega
  | case2 offset s body next rest htaken ih =>
    obtain ⟨before, after, heq, hoffset⟩ := ih h
    refine ⟨s ++ backtick :: before, after, ?_, ?_⟩
    · rw [intercalate_cons_backtick, heq]
      simp
    · simp [hoffset, size_backtick]
      omega
  | case3 => cases h

theorem body_ne_nil_of_mem_found {tags pieces : List Text} {offset : Nat} {f : Found}
    (h : f ∈ found tags offset pieces) : f.body ≠ [] := by
  fun_induction found tags offset pieces with
  | case1 offset s body next rest htaken ih =>
    rcases List.mem_append.1 h with h | h
    · split at h
      · obtain rfl := List.mem_singleton.1 h
        simpa using (Bool.and_eq_true_iff.1 htaken).2
      · cases h
    · exact ih h
  | case2 offset s body next rest htaken ih => exact ih h
  | case3 => cases h

/-- A literal found in a source lies there. -/
theorem Found.liesIn_embedded {before after : Text} {f : Found} (hoffset : f.offset = before.size) :
    (f.embedded (LineIndex.ofText
        (before ++ (f.tag ++ backtick :: (f.body ++ backtick :: after))))).LiesIn
      (before ++ (f.tag ++ backtick :: (f.body ++ backtick :: after))) := by
  generalize hsource : before ++ (f.tag ++ backtick :: (f.body ++ backtick :: after)) = source
  -- the source cut at the interior, and cut at the whole literal
  have hinner : source = before ++ f.tag ++ [backtick] ++ f.body ++ backtick :: after := by
    simp [← hsource]
  have hwhole : source = before ++ (f.tag ++ backtick :: (f.body ++ [backtick])) ++ after := by
    simp [← hsource]
  have hstart : f.offset + f.tag.size + 1 = (before ++ f.tag ++ [backtick]).size := by
    simp [hoffset, size_backtick, Nat.add_assoc]
  have hstop : f.offset + f.tag.size + 1 + f.body.size = (before ++ f.tag ++ [backtick] ++ f.body).size := by
    rw [Text.size_append, hstart]
  have hend : f.offset + f.tag.size + 1 + f.body.size + 1 =
      before.size + (f.tag ++ backtick :: (f.body ++ [backtick])).size := by
    simp [hoffset, size_backtick]
    omega
  have hsurrounding : (f.embedded (LineIndex.ofText source)).surrounding source =
      (before ++ f.tag ++ [backtick], backtick :: after) := by
    have hbefore : source.slice? 0 (f.offset + f.tag.size + 1) = some (before ++ f.tag ++ [backtick]) := by
      rw [hinner, hstart, List.append_assoc _ f.body, Text.slice?_zero_append]
    have hafter : source.slice? (f.offset + f.tag.size + 1 + f.body.size) source.size =
        some (backtick :: after) := by
      rw [hinner, hstop, Text.slice?_append_size]
    simp only [EmbeddedText.surrounding, Found.embedded, hbefore, hafter, Option.getD_some]
  constructor
  · simp only [Found.embedded, Span.slice?]
    rw [hinner, hstart, Text.slice?_append]
  · refine ⟨f.tag, rfl, ?_⟩
    simp only [Found.embedded, Span.slice?]
    rw [hwhole, hend, hoffset, Text.slice?_append]
  · rw [hsurrounding]
    simp [Found.embedded, ← hsource]
  · rw [hsurrounding]
    simp only [Found.embedded, LineIndex.range]
    have hposition : ∀ s t : Text, source = s ++ t →
        (LineIndex.ofText source).position s.size = .behind s := by
      rintro s t rfl
      exact LineIndex.position_ofText_append s t
    rw [hstop, hstart, hposition _ _ hinner, hposition _ (f.body ++ backtick :: after) (by simp [hinner])]

theorem liesIn_of_mem_taggedLiterals {tags : List Text} (htags : ∀ t ∈ tags, isIdentifier t = true)
    {source : Text} {e : EmbeddedText} (h : e ∈ taggedLiterals tags source) : e.LiesIn source := by
  rw [taggedLiterals_eq_found htags] at h
  obtain ⟨f, hf, rfl⟩ := List.mem_map.1 h
  obtain ⟨before, after, hsource, hoffset⟩ := exists_of_mem_found hf
  rw [List.intercalate_splitOn] at hsource
  rw [hsource]
  exact Found.liesIn_embedded (by simpa using hoffset)

theorem source_ne_nil_of_mem_taggedLiterals {tags : List Text} (htags : ∀ t ∈ tags, isIdentifier t = true)
    {source : Text} {e : EmbeddedText} (h : e ∈ taggedLiterals tags source) : e.source ≠ [] := by
  rw [taggedLiterals_eq_found htags] at h
  obtain ⟨f, hf, rfl⟩ := List.mem_map.1 h
  exact body_ne_nil_of_mem_found hf

theorem walk_congr {tags tags' : List Text} (h : ∀ t, t ∈ tags' ↔ t ∈ tags) (source : Text) (bs : List Nat) :
    walk tags' source bs = walk tags source bs := by
  have hended : ∀ r, endedByTag tags' r = endedByTag tags r := by
    intro r
    rw [Bool.eq_iff_iff, endedByTag_iff, endedByTag_iff]
    simp only [h]
  have hcontains : ∀ r, tags'.contains r = tags.contains r := by
    intro r
    rw [Bool.eq_iff_iff, List.contains_iff_mem, List.contains_iff_mem, h]
  fun_induction walk tags source bs with
  | case1 b b' rest htaken ih => rw [walk, hended, if_pos htaken, hcontains, ih]
  | case2 b b' rest htaken ih => rw [walk, hended, if_neg htaken, ih]
  | case3 bs hshort =>
    rcases bs with _ | ⟨b, _ | ⟨b', rest⟩⟩
    · rfl
    · rfl
    · exact absurd rfl (hshort b b' rest)

/-- **Extraction is the walk over the backticks.** It never fails on a list of tags that is not empty. -/
theorem extract_embeddedLiteral (tags : List Text) (hne : tags ≠ [])
    (htags : ∀ t ∈ tags, isIdentifier t = true) (source : Text) :
    extract .embeddedLiteral tags source = .ok (walk tags source (backticks source)) ∧
      (∀ e ∈ walk tags source (backticks source), e.LiesIn source) ∧
      ∀ tags', (∀ t, t ∈ tags' ↔ t ∈ tags) →
        extract .embeddedLiteral tags' source = extract .embeddedLiteral tags source := by
  have hextract : ∀ tags', (∀ t, t ∈ tags' ↔ t ∈ tags) →
      extract .embeddedLiteral tags' source = .ok (walk tags source (backticks source)) := by
    intro tags' h
    have hne' : tags' ≠ [] := by
      rintro rfl
      exact hne (List.eq_nil_iff_forall_not_mem.2 fun t ht => absurd ((h t).2 ht) (by simp))
    have htags' : ∀ t ∈ tags', isIdentifier t = true := fun t ht => htags t ((h t).1 ht)
    simp only [extract, List.isEmpty_eq_false_iff.2 hne', Bool.false_eq_true, if_false,
      taggedLiterals_eq_walk htags', walk_congr h]
  refine ⟨hextract tags fun _ => Iff.rfl, ?_, fun tags' h => ?_⟩
  · intro e he
    rw [← taggedLiterals_eq_walk htags] at he
    exact liesIn_of_mem_taggedLiterals htags he
  · rw [hextract tags' h, hextract tags fun _ => Iff.rfl]

/-- The longer of two tags is met first, whatever their order; a literal of another identifier is passed
over whole. -/
theorem extract_embeddedLiteral_ql_gql :
    (["ql", "gql"] : List Text) ≠ [] ∧ (∀ t ∈ (["ql", "gql"] : List Text), isIdentifier t = true) ∧
      extract .embeddedLiteral ["ql", "gql"] "x = gql`a` + mygql`b` +\nql`c`" =
        .ok [⟨"a", some "gql", ⟨4, 10⟩, ⟨8, 9⟩, ⟨⟨0, 8⟩, ⟨0, 9⟩⟩⟩,
          ⟨"c", some "ql", ⟨24, 29⟩, ⟨27, 28⟩, ⟨⟨1, 3⟩, ⟨1, 4⟩⟩⟩] := by
  have htags : ∀ t ∈ (["ql", "gql"] : List Text), isIdentifier t = true := by decide
  refine ⟨by decide, htags, ?_⟩
  rw [(extract_embeddedLiteral ["ql", "gql"] (by decide) htags _).1]
  decide

end Literal

end GraphqlBuild
