import GraphqlBuild.Proofs.Literal.Extraction
import GraphqlBuild.Proofs.Text.Splice
/-!
# New bodies for the literals of a source

`renew` gives the literals that the walk reports new bodies, and leaves all other pieces as they are: the
gaps between the bodies stay (`exists_gapsOf`). If no new body is empty, a second walk takes the same pairs of
backticks and passes over the same ones (`found_renew`).
-/

namespace GraphqlBuild.Literal

/-- The pieces of a source, the bodies of the reported literals replaced. -/
def renew (tags : List Text) (r : Text → Text) : List Text → List Text
  | s :: body :: next :: rest =>
    if endedByTag tags (run s) && !body.isEmpty then
      s :: (if tags.contains (run s) then r body else body) :: renew tags r (next :: rest)
    else s :: renew tags r (body :: next :: rest)
  | pieces => pieces

/-- A piece that no backtick precedes is no body. -/
theorem renew_cons (tags : List Text) (r : Text → Text) (s : Text) (rest : List Text) :
    ∃ rest', renew tags r (s :: rest) = s :: rest' := by
  rcases rest with _ | ⟨body, _ | ⟨next, rest⟩⟩
  · exact ⟨_, rfl⟩
  · exact ⟨_, rfl⟩
  · rw [renew]
    split
    · exact ⟨_, rfl⟩
    · exact ⟨_, rfl⟩

theorem renew_cons_cons (tags : List Text) (r : Text → Text) (s body : Text) (rest : List Text) :
    ∃ body' rest', renew tags r (s :: body :: rest) = s :: body' :: rest' := by
  cases rest with
  | nil => exact ⟨_, _, rfl⟩
  | cons next rest =>
    rw [renew]
    split
    · exact ⟨_, _, rfl⟩
    · obtain ⟨rest', h⟩ := renew_cons tags r body (next :: rest)
      exact ⟨_, _, congrArg (s :: ·) h⟩

@[simp] theorem renew_id (tags : List Text) (pieces : List Text) : renew tags id pieces = pieces := by
  fun_induction renew tags id pieces with
  | case1 s body next rest htaken ih => simp [ih]
  | case2 s body next rest htaken ih => rw [ih]
  | case3 => rfl

theorem length_renew (tags : List Text) (r : Text → Text) (pieces : List Text) :
    (renew tags r pieces).length = pieces.length := by
  fun_induction renew tags r pieces with
  | case1 s body next rest htaken ih => simp [ih]
  | case2 s body next rest htaken ih => simp [ih]
  | case3 => rfl

theorem backtick_notMem_of_mem_renew {tags : List Text} {r : Text → Text}
    (hr : ∀ t, backtick ∉ t → backtick ∉ r t) {pieces : List Text} (hp : ∀ s ∈ pieces, backtick ∉ s)
    {s : Text} (h : s ∈ renew tags r pieces) : backtick ∉ s := by
  fun_induction renew tags r pieces generalizing s with
  | case1 first body next rest htaken ih =>
    have hbody := hp body (by simp)
    rcases List.mem_cons.1 h with rfl | h
    · exact hp s (by simp)
    rcases List.mem_cons.1 h with rfl | h
    · split
      · exact hr body hbody
      · exact hbody
    · exact ih (fun t ht => hp t (by simp_all)) h
  | case2 first body next rest htaken ih =>
    rcases List.mem_cons.1 h with rfl | h
    · exact hp s (by simp)
    · exact ih (fun t ht => hp t (List.mem_cons_of_mem _ ht)) h
  | case3 => exact hp s h

theorem intercalate_cons_renew (tags : List Text) (r : Text → Text) (s next : Text) (rest : List Text) :
    [backtick].intercalate (s :: renew tags r (next :: rest)) =
      s ++ backtick :: [backtick].intercalate (renew tags r (next :: rest)) := by
  obtain ⟨rest', h⟩ := renew_cons tags r next rest
  rw [h, intercalate_cons_backtick]

/-! ## The gaps between the bodies -/

/-- What a text that begins at `offset` leaves when the interiors of the literals are cut out of it; `text r`
is the text with every interior replaced by means of `r`. -/
structure GapsOf (offset : Nat) (es : List EmbeddedText) (text : (Text → Text) → Text)
    (gaps : List Text) : Prop where
  length_eq : gaps.length = es.length + 1
  interiors : es.map (·.interior) = innerSpans offset gaps (es.map (·.source))
  text_eq : ∀ r, text r = interpolate gaps (es.map fun e => r e.source)

namespace GapsOf
variable {offset : Nat} {es : List EmbeddedText} {text : (Text → Text) → Text} {gaps : List Text}

theorem congr {text' : (Text → Text) → Text} (h : GapsOf offset es text gaps)
    (htext : ∀ r, text' r = text r) : GapsOf offset es text' gaps :=
  ⟨h.length_eq, h.interiors, fun r => (htext r).trans (h.text_eq r)⟩

/-- What comes in front of a text belongs to its first gap. -/
theorem prepend {next : Nat} (h : GapsOf next es text gaps) (front : Text)
    (hnext : next = offset + front.size) : ∃ gaps', GapsOf offset es (fun r => front ++ text r) gaps' := by
  obtain ⟨gap, rest, rfl⟩ := List.exists_cons_of_length_eq_add_one h.length_eq
  refine ⟨(front ++ gap) :: rest, ?_, ?_, fun r => ?_⟩
  · simpa using h.length_eq
  · rw [innerSpans_append_cons, h.interiors, hnext]
  · rw [interpolate_append_cons, h.text_eq]

/-- A literal and what comes in front of its interior. -/
theorem cons {e : EmbeddedText} {next : Nat} (h : GapsOf next es text gaps) (front : Text)
    (he : e.interior = ⟨offset + front.size, next⟩) (hnext : next = offset + front.size + e.source.size) :
    GapsOf offset (e :: es) (fun r => front ++ r e.source ++ text r) (front :: gaps) := by
  subst hnext
  refine ⟨?_, ?_, fun r => ?_⟩
  · simpa using h.length_eq
  · simp only [List.map_cons, innerSpans, h.interiors, he]
  · rw [List.map_cons, interpolate_cons_cons, h.text_eq]

end GapsOf

/-- The reported bodies, cut out of the text, leave the same gaps whatever takes their places. -/
theorem exists_gapsOf (tags : List Text) (index : LineIndex) (offset : Nat) (pieces : List Text) :
    ∃ gaps, GapsOf offset ((found tags offset pieces).map (Found.embedded index))
      (fun r => [backtick].intercalate (renew tags r pieces)) gaps := by
  fun_induction found tags offset pieces with
  | case1 offset s body next rest htaken ih =>
    obtain ⟨gaps, hgaps⟩ := ih
    by_cases hm : tags.contains (run s) = true
    · have hsize := Text.size_le_of_suffix (run_suffix s)
      have hstart : offset + (s.size - (run s).size) + (run s).size + 1 = offset + (s ++ [backtick]).size := by
        simp [size_backtick]
        omega
      have hstop : offset + s.size + 1 + body.size = offset + (s ++ [backtick]).size + body.size := by
        simp [size_backtick, Nat.add_assoc]
      -- the closing backtick belongs to the gap behind the literal
      obtain ⟨gaps', hgaps'⟩ := hgaps.prepend [backtick] rfl
      simp only [if_pos hm, List.singleton_append, List.map_cons]
      refine ⟨_, (hgaps'.cons (s ++ [backtick]) ?_ hstop).congr fun r => ?_⟩
      · simp only [Found.embedded, hstart, hstop]
      · rw [renew, if_pos htaken, if_pos hm, intercalate_cons_backtick, intercalate_cons_renew]
        simp [Found.embedded]
    · have hnext : offset + s.size + 1 + body.size + 1 = offset + (s ++ backtick :: (body ++ [backtick])).size := by
        simp [size_backtick]
        omega
      obtain ⟨gaps', hgaps'⟩ := hgaps.prepend _ hnext
      simp only [if_neg hm, List.nil_append]
      refine ⟨gaps', hgaps'.congr fun r => ?_⟩
      rw [renew, if_pos htaken, if_neg hm, intercalate_cons_backtick, intercalate_cons_renew]
      simp
  | case2 offset s body next rest htaken ih =>
    obtain ⟨gaps, hgaps⟩ := ih
    have hnext : offset + s.size + 1 = offset + (s ++ [backtick]).size := by simp [size_backtick, Nat.add_assoc]
    obtain ⟨gaps', hgaps'⟩ := hgaps.prepend _ hnext
    refine ⟨gaps', hgaps'.congr fun r => ?_⟩
    rw [renew, if_neg htaken, intercalate_cons_renew]
    simp
  | case3 pieces offset hshort =>
    refine ⟨[[backtick].intercalate pieces], rfl, rfl, fun r => ?_⟩
    have hsame : renew tags r pieces = pieces := by
      obtain rfl | ⟨s, rfl⟩ | ⟨s, body, rfl⟩ := eq_of_ne_cons_cons_cons hshort <;> rfl
    simp [hsame]

/-- **Lock step.** The second walk takes the same pairs as the first. -/
theorem found_renew (tags : List Text) {r : Text → Text} (hr : ∀ t, t ≠ [] → r t ≠ [])
    (offset offset' : Nat) (pieces : List Text) :
    (found tags offset' (renew tags r pieces)).map (fun f => (f.tag, f.body)) =
      (found tags offset pieces).map fun f => (f.tag, r f.body) := by
  fun_induction found tags offset pieces generalizing offset' with
  | case1 offset s body next rest htaken ih =>
    obtain ⟨rest', hrest⟩ := renew_cons tags r next rest
    have hended : endedByTag tags (run s) = true := (Bool.and_eq_true_iff.1 htaken).1
    have hbody : body ≠ [] := by simpa using (Bool.and_eq_true_iff.1 htaken).2
    rw [renew, if_pos htaken]
    rw [hrest] at ih ⊢
    by_cases hm : tags.contains (run s) = true
    · rw [if_pos hm, found, if_pos (by simp [hended, hr body hbody]), if_pos hm, if_pos hm,
        List.map_append, List.map_append, ih]
      rfl
    · rw [if_neg hm, found, if_pos htaken, if_neg hm, if_neg hm, List.nil_append, List.nil_append, ih]
  | case2 offset s body next rest htaken ih =>
    obtain ⟨next', rest', hrest⟩ := renew_cons_cons tags r body next rest
    rw [renew, if_neg htaken]
    rw [hrest] at ih ⊢
    rw [found, if_neg htaken, ih]
  | case3 pieces offset hshort =>
    obtain rfl | ⟨s, rfl⟩ | ⟨s, body, rfl⟩ := eq_of_ne_cons_cons_cons hshort <;> rfl

end GraphqlBuild.Literal
