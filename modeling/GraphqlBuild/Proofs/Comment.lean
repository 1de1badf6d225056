import GraphqlBuild.Proofs.Normalize
import GraphqlBuild.Proofs.Text.Collapse
/-!
# Texts without comments

A text is without comments if a backslash stands in front of each of its `#`. Stripping makes such a text
of any (`uncommented_stripComments`) and changes nothing in one (`stripComments_of_uncommented`), and
trimming and collapsing keep it one (`Uncommented.trim`, `Uncommented.collapse`), for a `#` never comes to stand
behind another character than before unless that is a blank.
-/

namespace GraphqlBuild

/-- A backslash stands in front of every `#`; `previous` is the character before the text. -/
def Uncommented (previous : Option Char) : Text → Prop
  | [] => True
  | c :: t => (c = '#' → previous = some '\\') ∧ Uncommented (some c) t

instance decidableUncommented : (previous : Option Char) → (t : Text) → Decidable (Uncommented previous t)
  | _, [] => .isTrue trivial
  | previous, c :: t =>
    have := decidableUncommented (some c) t
    inferInstanceAs (Decidable ((c = '#' → previous = some '\\') ∧ Uncommented (some c) t))

theorem Uncommented.weaken {p q : Option Char} (hpq : p = some '\\' → q = some '\\') {t : Text}
    (h : Uncommented p t) : Uncommented q t := by
  cases t with
  | nil => trivial
  | cons c t => exact ⟨fun hc => hpq (h.1 hc), h.2⟩

theorem Uncommented.left {p : Option Char} {s t : Text} (h : Uncommented p (s ++ t)) : Uncommented p s := by
  induction s generalizing p with
  | nil => trivial
  | cons c s ih => exact ⟨h.1, ih h.2⟩

/-- In front of a text that has no comment whatever precedes it, a text without `#` may stand. -/
theorem Uncommented.append {p : Option Char} {s t : Text} (hs : '#' ∉ s) (ht : ∀ q, Uncommented q t) :
    Uncommented p (s ++ t) := by
  induction s generalizing p with
  | nil => exact ht p
  | cons c s ih =>
    obtain ⟨hc, hs⟩ := not_or.1 (mt List.mem_cons.2 hs)
    exact ⟨fun hhash => absurd hhash.symm hc, ih hs⟩

/-! ## Stripping -/

theorem stripCommentsFrom_of_uncommented {p : Option Char} {t : Text} (h : Uncommented p t) :
    stripCommentsFrom false p t = t := by
  induction t generalizing p with
  | nil => rfl
  | cons c t ih =>
    have hkept : ¬(c = '#' ∧ p ≠ some '\\') := fun hc => hc.2 (h.1 hc.1)
    rw [stripCommentsFrom, if_neg (by simp), if_neg hkept, ih h.2]

theorem stripComments_of_uncommented {t : Text} (h : Uncommented none t) : stripComments t = t :=
  stripCommentsFrom_of_uncommented h

/-- What is left begins with a line terminator if the text began inside a comment. -/
theorem uncommented_stripCommentsFrom (inComment : Bool) (p : Option Char) (t : Text) :
    Uncommented (if inComment then none else p) (stripCommentsFrom inComment p t) := by
  induction t generalizing inComment p with
  | nil => trivial
  | cons c t ih =>
    rw [stripCommentsFrom]
    cases inComment with
    | true =>
      simp only [if_true]
      split
      · rename_i hend
        have hc : c ≠ '#' := by rintro rfl; simp at hend
        exact ⟨fun h => absurd h hc, ih false (some c)⟩
      · exact ih true (some c)
    | false =>
      simp only [Bool.false_eq_true, if_false]
      split
      · exact (ih true (some c)).weaken (by simp)
      · rename_i hkept
        exact ⟨fun hc => Classical.not_not.1 fun hp => hkept ⟨hc, hp⟩, ih false (some c)⟩

theorem uncommented_stripComments (t : Text) : Uncommented none (stripComments t) :=
  uncommented_stripCommentsFrom false none t

namespace Normalization
variable {n : Normalization}

theorem uncommented_kept (hstrip : n.stripComments = true) (t : Text) : Uncommented none (n.kept t) := by
  rw [kept, if_pos hstrip]
  exact uncommented_stripComments t

theorem kept_eq_self {t : Text} (h : n.stripComments = true → Uncommented none t) : n.kept t = t := by
  unfold kept
  split
  · rename_i hstrip
    exact stripComments_of_uncommented (h hstrip)
  · rfl

theorem applied_of_notMem (hn : n.transform = none) {t : Text} (h : '#' ∉ t) : n.applied t = t := by
  have hfree := Uncommented.append (p := none) h (t := []) fun _ => trivial
  rw [applied_of_none hn, kept_eq_self fun _ => by simpa using hfree]

end Normalization

/-! ## Trimming and collapsing -/

/-- Behind a blank no `#` was allowed, so none is at the front once the blanks are gone. -/
theorem Uncommented.of_blanks_append {p : Option Char} {s t : Text} (hs : ∀ c ∈ s, isBlank c = true)
    (hp : p ≠ some '\\') (h : Uncommented p (s ++ t)) : Uncommented none t := by
  induction s generalizing p with
  | nil => exact h.weaken fun heq => absurd heq hp
  | cons c s ih =>
    have hc : some c ≠ some '\\' := by
      rintro heq
      have hblank := hs c List.mem_cons_self
      rw [Option.some.inj heq] at hblank
      exact absurd hblank (by decide)
    exact ih (fun d hd => hs d (List.mem_cons_of_mem _ hd)) hc h.2

theorem Uncommented.trim {t : Text} (h : Uncommented none t) : Uncommented none t.trim := by
  rw [← Text.leading_trim_trailing t] at h
  exact (h.of_blanks_append (fun _ => Text.isBlank_of_mem_leading) (by simp)).left

theorem Uncommented.squeezeFrom {pending : Bool} {p q : Option Char} (hpq : p = some '\\' → q = some '\\')
    {t : Text} (h : Uncommented p t) : Uncommented q (Text.squeezeFrom pending t) := by
  induction t generalizing pending p q with
  | nil => trivial
  | cons c t ih =>
    rw [Text.squeezeFrom]
    cases hc : isBlank c with
    | false => exact ⟨fun hhash => hpq (h.1 hhash), ih id h.2⟩
    | true =>
      have hbackslash : some c ≠ some '\\' := by
        rintro heq
        rw [Option.some.inj heq] at hc
        exact absurd hc (by decide)
      cases pending with
      | true => exact ih (fun heq => absurd heq hbackslash) h.2
      | false => exact ⟨fun hspace => absurd hspace (by decide), ih (fun heq => absurd heq hbackslash) h.2⟩

theorem Uncommented.collapse {t : Text} (h : Uncommented none t) : Uncommented none t.collapse := by
  obtain ⟨blanks, hblanks⟩ := Text.trimEnd_prefix t
  rw [← hblanks] at h
  rw [← Text.squeezeFrom_trimEnd]
  exact h.left.squeezeFrom id

end GraphqlBuild
