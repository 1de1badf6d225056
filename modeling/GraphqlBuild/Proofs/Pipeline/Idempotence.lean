import GraphqlBuild.Config.Preset
import GraphqlBuild.Proofs.Comment
import GraphqlBuild.Proofs.Pipeline.Literals
import GraphqlBuild.Proofs.Text.Case
/-!
# Rewriting a host module twice

A second run over a rewritten host module changes nothing if no transform is set or a preset is
(`transformLiterals_transformLiterals`). A literal's new interior has no comment left and is collapsed, and
what a preset makes of a text it leaves alone from then on (`Preset.steady_apply`); an interior that would
become empty stays, and would become empty again.
-/

namespace GraphqlBuild

/-! ## Steady transforms -/

/-- The transform starts no comment, brings no backtick in, and leaves what it has made alone once that is
collapsed. -/
structure Steady (f : Text → Text) : Prop where
  uncommented {t : Text} : Uncommented none t → Uncommented none (f t)
  backtick_notMem {t : Text} : backtick ∉ t → backtick ∉ f t
  collapse_fixed (t : Text) : f (f t).collapse = (f t).collapse

theorem steady_collapse : Steady Text.collapse where
  uncommented := Uncommented.collapse
  backtick_notMem ht hm := by
    rcases Text.mem_of_mem_collapse hm with heq | hm
    · exact absurd heq (by decide)
    · exact ht hm
  collapse_fixed t := by rw [Text.collapse_collapse, Text.collapse_collapse]

theorem Recased.uncommented {table : CaseTable} {p q : Option Char} (hpq : p = some '\\' → q = some '\\')
    {t t' : Text} (h : Recased table t t') (ht : Uncommented p t) : Uncommented q t' := by
  induction h generalizing p q with
  | nil => trivial
  | same hc _ ih => exact ⟨fun hhash => hpq (ht.1 hhash), ih id ht.2⟩
  | @moved c _ _ _ hc hu _ ih =>
    have hbackslash : ∀ q' : Option Char, some c = some '\\' → q' = some '\\' := by
      intro q' heq
      rw [Option.some.inj heq] at hc
      exact absurd (by decide) hc
    exact .append (fun hhash => (hu _ hhash).2 (by decide)) fun q' => ih (hbackslash q') ht.2

/-- A mapping that keeps to a sound table is steady. -/
theorem steady_of_recased {table : CaseTable} {f : Text → Text} (hf : ∀ t, Recased table t (f t))
    (hspace : table.map ' ' = [' ']) (hfixed : ∀ t, (∀ c ∈ t, table.map c = [c]) → f t = t) : Steady f where
  uncommented ht := (hf _).uncommented id ht
  backtick_notMem ht hm := ht ((hf _).mem_of_mem (by decide) hm)
  collapse_fixed t := by
    refine hfixed _ fun c hc => ?_
    rcases Text.mem_of_mem_collapse hc with rfl | hc
    · exact hspace
    · exact (hf t).map_eq_singleton c hc

theorem Preset.steady_apply (preset : Preset) : Steady preset.apply := by
  cases preset with
  | identity => exact ⟨id, id, fun _ => rfl⟩
  | uppercase =>
    have hspace : upperTable.map ' ' = [' '] :=
      CaseTable.map_eq_singleton_of_misses upperTable_sound
        (show upperTable.misses 0x20 0x20 1 = true by decide) (by simp [InProgression])
    exact steady_of_recased recased_upper hspace fun _ => upper_eq_self
  | lowercase =>
    have hspace : lowerTable.map ' ' = [' '] :=
      CaseTable.map_eq_singleton_of_misses lowerTable_sound
        (show lowerTable.misses 0x20 0x20 1 = true by decide) (by simp [InProgression])
    exact steady_of_recased recased_lower hspace fun _ => lower_eq_self
  | collapseWhitespace => exact steady_collapse

/-! ## New interiors -/

/-- No transform, or a steady one. -/
def Normalization.IsSteady (n : Normalization) : Prop := ∀ f, n.transform = some f → Steady f

namespace Normalization
variable {n : Normalization}

theorem IsSteady.spares_backtick (hn : n.IsSteady) : n.Spares backtick := fun f hf _ => (hn f hf).backtick_notMem

theorem IsSteady.uncommented_applied (hn : n.IsSteady) (hstrip : n.stripComments = true) (t : Text) :
    Uncommented none (n.applied t) := by
  cases hf : n.transform with
  | none =>
    rw [applied_of_none hf]
    exact uncommented_kept hstrip t
  | some f =>
    rw [applied_of_some hf]
    exact (hn f hf).uncommented (uncommented_kept hstrip t)

theorem IsSteady.applied_collapse (hn : n.IsSteady) (t : Text) :
    n.applied (n.applied t).collapse = (n.applied t).collapse := by
  have hkept : n.kept (n.applied t).collapse = (n.applied t).collapse :=
    kept_eq_self fun hstrip => (hn.uncommented_applied hstrip t).collapse
  cases hf : n.transform with
  | none => rw [applied_of_none hf, hkept]
  | some f =>
    rw [applied_of_some hf, hkept, applied_of_some hf]
    exact (hn f hf).collapse_fixed _

end Normalization

namespace Pipeline

theorem normalizeLiteral_eq (p : Pipeline) (t : Text) :
    p.normalizeLiteral t = (p.options.normalization.applied t).collapse := Text.collapse_trim _

theorem normalizeLiteral_normalizeLiteral {p : Pipeline} (hp : p.options.normalization.IsSteady) (t : Text) :
    p.normalizeLiteral (p.normalizeLiteral t) = p.normalizeLiteral t := by
  simp only [normalizeLiteral_eq, hp.applied_collapse, Text.collapse_collapse]

theorem newInterior_newInterior {p : Pipeline} (hp : p.options.normalization.IsSteady) (t : Text) :
    p.newInterior (p.newInterior t) = p.newInterior t := by
  unfold newInterior
  cases hempty : (p.normalizeLiteral t).isEmpty with
  | true => simp [hempty]
  | false => simp [hempty, normalizeLiteral_normalizeLiteral hp]

end Pipeline

/-! ## The second run -/

theorem Literal.renew_renew (tags : List Text) {r : Text → Text} (hne : ∀ t, t ≠ [] → r t ≠ [])
    (hr : ∀ t, r (r t) = r t) (pieces : List Text) : renew tags r (renew tags r pieces) = renew tags r pieces := by
  fun_induction renew tags r pieces with
  | case1 s body next rest htaken ih =>
    obtain ⟨rest', hrest⟩ := renew_cons tags r next rest
    have hended : endedByTag tags (run s) = true := (Bool.and_eq_true_iff.1 htaken).1
    have hbody : body ≠ [] := by simpa using (Bool.and_eq_true_iff.1 htaken).2
    rw [hrest] at ih ⊢
    by_cases hm : tags.contains (run s) = true
    · rw [if_pos hm, renew, if_pos (by simp [hended, hne body hbody]), if_pos hm, hr, ih]
    · rw [if_neg hm, renew, if_pos htaken, if_neg hm, ih]
  | case2 s body next rest htaken ih =>
    obtain ⟨next', rest', hrest⟩ := renew_cons_cons tags r body next rest
    rw [hrest] at ih ⊢
    rw [renew, if_neg htaken, ih]
  | case3 pieces hshort =>
    obtain rfl | ⟨s, rfl⟩ | ⟨s, body, rfl⟩ := eq_of_ne_cons_cons_cons hshort <;> rfl

namespace Pipeline

/-- The pieces of the new module are the old ones with the new interiors. -/
theorem splitOn_code_of_transformLiterals {p : Pipeline} (hspares : p.options.normalization.Spares backtick)
    {code : Text} {out : Output} (h : p.transformLiterals code = some out) :
    List.splitOn backtick out.code =
      Literal.renew p.options.tags p.newInterior (List.splitOn backtick code) := by
  rw [code_of_transformLiterals h]
  refine List.splitOn_intercalate backtick (fun s hs => ?_) ?_
  · exact Literal.backtick_notMem_of_mem_renew (fun t => backtick_notMem_newInterior hspares)
      (Literal.backtick_notMem_of_mem_splitOn code) hs
  · rw [← List.length_pos_iff, Literal.length_renew, List.length_pos_iff]
    exact List.splitOn_ne_nil backtick code

theorem map_of_transformLiterals {p : Pipeline} {code : Text} {out : Output}
    (h : p.transformLiterals code = some out) : out.map = none := by
  unfold transformLiterals at h
  split at h
  · cases h
  · cases h
    rfl

/-- The new module has literals if the old one has. -/
theorem extractLiterals_code_ne_nil {p : Pipeline} (hspares : p.options.normalization.Spares backtick)
    {code : Text} {out : Output} (h : p.transformLiterals code = some out) :
    p.extractLiterals out.code ≠ [] := by
  have hne : p.extractLiterals code ≠ [] := by
    rw [ne_eq, ← p.transformLiterals_eq_none_iff code, h]
    simp
  have hfound := Literal.found_renew p.options.tags (fun t => p.newInterior_ne_nil) 0 0
    (List.splitOn backtick code)
  rw [← splitOn_code_of_transformLiterals hspares h] at hfound
  rw [extractLiterals, Literal.taggedLiterals_eq_found p.options.isIdentifier_of_mem_tags, ne_eq,
    List.map_eq_nil_iff] at hne ⊢
  intro hnil
  rw [hnil] at hfound
  exact hne (by simpa using hfound.symm)

/-- **A second run changes nothing.** -/
theorem transformLiterals_transformLiterals (p : Pipeline)
    (hp : p.options.normalization.transform = none ∨
      ∃ preset : Preset, p.options.normalization.transform = some preset.apply)
    {code : Text} {out : Output} (h : p.transformLiterals code = some out) :
    p.transformLiterals out.code = some out := by
  have hsteady : p.options.normalization.IsSteady := by
    intro f hf
    rcases hp with hnone | ⟨preset, hpreset⟩
    · rw [hnone] at hf
      cases hf
    · rw [hpreset] at hf
      cases hf
      exact preset.steady_apply
  have hspares := hsteady.spares_backtick
  have hrenewed : [backtick].intercalate (Literal.renew p.options.tags p.newInterior
      (List.splitOn backtick out.code)) = out.code := by
    rw [splitOn_code_of_transformLiterals hspares h,
      Literal.renew_renew _ (fun t => p.newInterior_ne_nil) (newInterior_newInterior hsteady),
      code_of_transformLiterals h]
  rw [p.transformLiterals_eq_some (extractLiterals_code_ne_nil hspares h), hrenewed,
    ← map_of_transformLiterals h]

/-- The sharp behind a backslash stays, and so does the literal that holds a comment only. -/
theorem transformLiterals_transformLiterals_uppercase :
    let p : Pipeline := { options := ⟨{ normalization := ⟨true, some Preset.uppercase.apply⟩ }, by decide⟩ }
    let code : Text := "gql` a\\#b  c # d\n` + gql`# e`"
    let out : Output := { code := "gql`A\\#B C` + gql`# e`" }
    p.transformLiterals code = some out ∧ p.transformLiterals out.code = some out := by
  intro p code out
  have hout : p.transformLiterals code = some out := by decide
  exact ⟨hout, transformLiterals_transformLiterals p (.inr ⟨.uppercase, rfl⟩) hout⟩

end Pipeline

end GraphqlBuild
