import GraphqlBuild.Proofs.LineEnd
import GraphqlBuild.Proofs.Pipeline.Idempotence
/-!
# Normalizing twice

A second normalization strips comments again, from a text that the transform has made and trimming has cut. Without a
transform, or with a preset, it changes nothing (`apply_apply_of_none`, `apply_apply_of_preset`). For any other
transform that leaves its own results alone it changes nothing exactly if the transform does not tell the cut and
stripped result from the result itself (`apply_apply_iff`). The two ways to tell them apart can be seen one by one: where
there is nothing left to strip, only the blanks at the ends matter (`apply_apply_eq_iff_of_uncommented`), and for a
transform that ignores those only the comments do (`apply_apply_eq_iff_of_trim`). A transform that takes a backslash away
brings a comment in, one that looks at the blanks at the ends misses what was trimmed (`apply_apply_ne`).
-/

namespace GraphqlBuild

theorem Text.upper_trim_upper (t : Text) : t.upper.trim.upper = t.upper.trim :=
  upper_eq_self fun c hc => (recased_upper t).map_eq_singleton c (Text.mem_of_mem_trim hc)

theorem Text.lower_trim_lower (t : Text) : t.lower.trim.lower = t.lower.trim :=
  lower_eq_self fun c hc => (recased_lower t).map_eq_singleton c (Text.mem_of_mem_trim hc)

/-- A preset leaves its trimmed results alone. -/
theorem Preset.apply_trim_apply (preset : Preset) (t : Text) :
    (preset.apply (preset.apply t).trim).trim = (preset.apply t).trim := by
  cases preset with
  | identity => rw [apply, apply, Text.trim_trim]
  | uppercase => rw [apply, apply, Text.upper_trim_upper, Text.trim_trim]
  | lowercase => rw [apply, apply, Text.lower_trim_lower, Text.trim_trim]
  | collapseWhitespace => rw [apply, apply, Text.collapse_trim, Text.collapse_collapse]

namespace Normalization
variable {n : Normalization} {f : Text → Text} {t : Text}

/-- Nothing is stripped from a normalized text if the transform has left no comment in it. -/
theorem kept_apply (h : n.stripComments = true → Uncommented none (n.applied t)) :
    n.kept (n.apply t) = n.apply t :=
  kept_eq_self fun hstrip => (h hstrip).trim

theorem IsSteady.kept_apply (hn : n.IsSteady) (t : Text) : n.kept (n.apply t) = n.apply t :=
  Normalization.kept_apply fun hstrip => hn.uncommented_applied hstrip t

theorem apply_apply_of_none (hf : n.transform = none) (t : Text) : n.apply (n.apply t) = n.apply t := by
  have hsteady : n.IsSteady := by simp [IsSteady, hf]
  rw [apply, applied_of_none hf, hsteady.kept_apply, apply, Text.trim_trim]

theorem apply_apply_of_preset {preset : Preset} (hf : n.transform = some preset.apply) (t : Text) :
    n.apply (n.apply t) = n.apply t := by
  have hsteady : n.IsSteady := by
    intro f hf'
    obtain rfl := Option.some.inj (hf.symm.trans hf')
    exact preset.steady_apply
  rw [apply, applied_of_some hf, hsteady.kept_apply, apply, applied_of_some hf]
  exact preset.apply_trim_apply (n.kept t)

/-- The transform makes the same of its result and of what a second normalization leaves of it. -/
theorem apply_apply_eq_iff (hf : n.transform = some f) (hidem : ∀ s, f (f s) = f s) :
    n.apply (n.apply t) = n.apply t ↔ (f (n.kept (n.apply t))).trim = (f (n.applied t)).trim := by
  rw [applied_of_some hf t, hidem, ← applied_of_some hf t, ← applied_of_some hf (n.apply t)]
  exact Iff.rfl

/-- Where there is no comment left to strip, the blanks at the ends decide: the transform must leave the trimmed result
alone, but for such blanks. -/
theorem apply_apply_eq_iff_of_uncommented (hf : n.transform = some f) (hidem : ∀ s, f (f s) = f s)
    (hplain : n.stripComments = true → Uncommented none (n.apply t)) :
    n.apply (n.apply t) = n.apply t ↔ (f (n.apply t)).trim = n.apply t := by
  have hresult : f (n.applied t) = n.applied t := by rw [applied_of_some hf, hidem]
  rw [apply_apply_eq_iff hf hidem, kept_eq_self hplain, hresult, ← apply]

/-- For a transform that ignores blanks at the ends the comments decide: it must make its result again of the result
without comments. -/
theorem apply_apply_eq_iff_of_trim (hf : n.transform = some f) (hidem : ∀ s, f (f s) = f s)
    (hends : ∀ s : Text, (f s.trim).trim = (f s).trim) :
    n.apply (n.apply t) = n.apply t ↔ (f (n.kept (n.applied t))).trim = n.apply t := by
  have hresult : f (n.applied t) = n.applied t := by rw [applied_of_some hf, hidem]
  -- trimming and stripping may change places as long as the transform trims for itself
  have hkept : (f (n.kept (n.apply t))).trim = (f (n.kept (n.applied t))).trim := by
    rw [← hends, apply, trim_kept_trim, hends]
  rw [apply_apply_eq_iff hf hidem, hkept, hresult, ← apply]

/-- **When a second normalization changes nothing**, the transform, if there is one, leaving its own results alone:
exactly if the transform makes the same of its result and of what trimming and stripping leave of the result. This is so
if the result has no comment and blanks at the ends do not matter to the transform, without a transform, and with a
preset. Where the trimmed result has no comment, it is so exactly if the transform leaves that alone, but for blanks at
the ends; where those do not matter to the transform, exactly if it makes its result again of the result without
comments. -/
theorem apply_apply_iff (n : Normalization) (hidem : ∀ f, n.transform = some f → ∀ s, f (f s) = f s) (t : Text) :
    (n.apply (n.apply t) = n.apply t ↔
        ∀ f, n.transform = some f → (f (n.kept (n.apply t))).trim = (f (n.applied t)).trim) ∧
      ((n.stripComments = true → Uncommented none (n.applied t)) →
        (∀ f, n.transform = some f → ∀ s, (f s.trim).trim = (f s).trim) → n.apply (n.apply t) = n.apply t) ∧
      ((n.transform = none ∨ ∃ preset : Preset, n.transform = some preset.apply) →
        n.apply (n.apply t) = n.apply t) ∧
      ((n.stripComments = true → Uncommented none (n.apply t)) →
        (n.apply (n.apply t) = n.apply t ↔ ∀ f, n.transform = some f → (f (n.apply t)).trim = n.apply t)) ∧
      ((∀ f, n.transform = some f → ∀ s, (f s.trim).trim = (f s).trim) →
        (n.apply (n.apply t) = n.apply t ↔
          ∀ f, n.transform = some f → (f (n.kept (n.applied t))).trim = n.apply t)) := by
  cases hf : n.transform with
  | none => simp [apply_apply_of_none hf]
  | some f =>
    have hidem := hidem f hf
    simp only [reduceCtorEq, false_or, Option.some.injEq, forall_eq']
    refine ⟨apply_apply_eq_iff hf hidem, fun hplain hends => ?_, ?_, apply_apply_eq_iff_of_uncommented hf hidem,
      apply_apply_eq_iff_of_trim hf hidem⟩
    · rw [apply_apply_eq_iff hf hidem, kept_apply hplain, apply]
      exact hends (n.applied t)
    · rintro ⟨preset, rfl⟩
      exact apply_apply_of_preset hf t

/-- Collapsing: the text has a comment, a sharp behind a backslash and blanks at both ends. -/
theorem apply_apply_iff_collapse :
    let n : Normalization := ⟨true, some Text.collapse⟩
    let t : Text := " a # b\n \\#c  d\t"
    n.apply (n.apply t) = n.apply t ∧ n.apply t = ("a \\#c d" : Text) := by
  intro n t
  have hidem : ∀ f, n.transform = some f → ∀ s, f (f s) = f s := by
    rintro f ⟨⟩ s
    exact Text.collapse_collapse s
  have hends : ∀ f, n.transform = some f → ∀ s, (f s.trim).trim = (f s).trim := by
    rintro f ⟨⟩ s
    rw [Text.collapse_trim]
  exact ⟨(apply_apply_iff n hidem t).2.1 (fun _ => by decide) hends, by decide⟩

/-- Two transforms that leave their own results alone. Without its backslash the sharp begins a comment in the second
normalization; and a mark that ends in a space is not seen again once the space is trimmed. -/
theorem apply_apply_ne :
    let unescape : Text → Text := fun t => t.filter fun c => c ≠ '\\'
    let mark : Text → Text := fun t => if t.getLast? = some ' ' then t else t ++ ['!', ' ']
    let n : Normalization := ⟨true, some unescape⟩
    let m : Normalization := ⟨false, some mark⟩
    (∀ t, unescape (unescape t) = unescape t) ∧ (∀ t, mark (mark t) = mark t) ∧
      (n.apply "a\\#b" = ("a#b" : Text) ∧ n.apply (n.apply "a\\#b") = ("a" : Text)) ∧
      (m.apply "a" = ("a!" : Text) ∧ m.apply (m.apply "a") = ("a!!" : Text)) := by
  refine ⟨fun t => ?_, fun t => ?_, ⟨by decide, by decide⟩, by decide, by decide⟩
  · simp
  · by_cases hlast : t.getLast? = some ' ' <;> simp [hlast]

end Normalization

end GraphqlBuild
