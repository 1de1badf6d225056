import GraphqlBuild.Normalize
import GraphqlBuild.Proofs.Text.Blank
/-!
# Characters of normalized texts

Stripping comments brings no character in, and so normalization brings in those of the transform only: a
character that the transform does not bring in is in the normalized text only if it was in the text
(`Normalization.notMem_apply`).
-/

namespace GraphqlBuild

theorem mem_of_mem_stripCommentsFrom {inComment : Bool} {previous : Option Char} {c : Char} {t : Text}
    (h : c ∈ stripCommentsFrom inComment previous t) : c ∈ t := by
  fun_induction stripCommentsFrom inComment previous t with
  | case1 => cases h
  | case2 _ d t hend ih => exact List.mem_cons.2 ((List.mem_cons.1 h).imp_right ih)
  | case3 _ d t hend ih => exact List.mem_cons_of_mem _ (ih h)
  | case4 _ _ d t hend hstart ih => exact List.mem_cons_of_mem _ (ih h)
  | case5 _ _ d t hend hstart ih => exact List.mem_cons.2 ((List.mem_cons.1 h).imp_right ih)

namespace Normalization
variable {n : Normalization} {f : Text → Text}

/-- What the transform is given. -/
def kept (n : Normalization) (t : Text) : Text := if n.stripComments then GraphqlBuild.stripComments t else t

theorem applied_of_none (hf : n.transform = none) (t : Text) : n.applied t = n.kept t := by
  simp only [applied, hf, kept]

theorem applied_of_some (hf : n.transform = some f) (t : Text) : n.applied t = f (n.kept t) := by
  simp only [applied, hf, kept]

theorem mem_of_mem_kept {c : Char} {t : Text} (h : c ∈ n.kept t) : c ∈ t := by
  unfold kept at h
  split at h
  · exact mem_of_mem_stripCommentsFrom h
  · exact h

end Normalization

/-- The transform brings the character into no text that is without it. -/
def Normalization.Spares (n : Normalization) (c : Char) : Prop :=
  ∀ f, n.transform = some f → ∀ t : Text, c ∉ t → c ∉ f t

theorem Normalization.notMem_apply {n : Normalization} {c : Char} (hn : n.Spares c) {t : Text} (hc : c ∉ t) :
    c ∉ n.apply t := by
  have hkept : c ∉ n.kept t := mt mem_of_mem_kept hc
  intro h
  have happlied := Text.mem_of_mem_trim h
  cases hf : n.transform with
  | none =>
    rw [applied_of_none hf] at happlied
    exact hkept happlied
  | some f =>
    rw [applied_of_some hf] at happlied
    exact hn f hf _ hkept happlied

end GraphqlBuild
