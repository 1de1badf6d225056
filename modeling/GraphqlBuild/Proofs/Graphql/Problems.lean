import GraphqlBuild.Graphql.Validate
import GraphqlBuild.Proofs.Graphql.Lexer
import Mathlib.Data.List.Induction
/-!
# The first problem of a text

A text is valid if the lexer finds no fault and the grammar has no complaint (`validate_eq_ok_iff`).
Otherwise the answer is the first problem: none has a smaller offset, and none of the same offset was found
before it (`IsFirst`, `validate_eq_error_iff`).
-/

namespace GraphqlBuild.Graphql

/-- The problems of a text in the order in which they are found: faults, then complaints. -/
def problems (t : Text) : List (Problem × Nat) :=
  ((faultsOf (lexemes t)).map fun f => (Problem.lexical f.1, f.2)) ++
    ((Parser.document.run { words := wordsOf (tokensOf (lexemes t)) }).2.complaints.reverse.map fun c =>
      (Problem.grammatical c.1, c.2))

theorem ofText_snd (t : Text) : (Document.ofText t).2 = byOffset (problems t) := rfl

/-- No problem has a smaller offset, and none of the same offset stands before this one. -/
structure IsFirst (p : Problem × Nat) (ps : List (Problem × Nat)) : Prop where
  le : ∀ q ∈ ps, p.2 ≤ q.2
  find : ps.find? (fun q => q.2 == p.2) = some p

theorem IsFirst.mem {p : Problem × Nat} {ps : List (Problem × Nat)} (h : IsFirst p ps) : p ∈ ps :=
  List.mem_of_find?_eq_some h.find

theorem IsFirst.unique {p q : Problem × Nat} {ps : List (Problem × Nat)} (hp : IsFirst p ps) (hq : IsFirst q ps) :
    p = q := by
  have hoffset : p.2 = q.2 := Nat.le_antisymm (hp.le q hq.mem) (hq.le p hp.mem)
  have hfind := hp.find
  rw [hoffset, hq.find] at hfind
  exact (Option.some.inj hfind).symm

theorem insertByOffset_ne_nil (p : Problem × Nat) (ps : List (Problem × Nat)) : insertByOffset p ps ≠ [] := by
  fun_cases insertByOffset p ps <;> simp

theorem byOffset_concat (ps : List (Problem × Nat)) (p : Problem × Nat) :
    byOffset (ps ++ [p]) = insertByOffset p (byOffset ps) := by
  rw [byOffset, List.foldl_append]
  rfl

theorem byOffset_eq_nil_iff {ps : List (Problem × Nat)} : byOffset ps = [] ↔ ps = [] := by
  induction ps using List.reverseRecOn with
  | nil => simp [byOffset]
  | append_singleton ps p _ => simp [byOffset_concat, insertByOffset_ne_nil]

/-- By induction on the problems; the last one found comes first only if its offset is the smallest. -/
theorem isFirst_of_byOffset {p : Problem × Nat} {ps rest : List (Problem × Nat)} (h : byOffset ps = p :: rest) :
    IsFirst p ps := by
  induction ps using List.reverseRecOn generalizing p rest with
  | nil => cases h
  | append_singleton ps x ih =>
    rw [byOffset_concat] at h
    cases hsorted : byOffset ps with
    | nil =>
      rw [hsorted] at h
      obtain rfl : x = p := (List.cons.inj h).1
      rw [byOffset_eq_nil_iff.1 hsorted]
      exact ⟨by simp, by simp⟩
    | cons q sorted =>
      obtain ⟨hle, hfind⟩ := ih hsorted
      rw [hsorted, insertByOffset] at h
      split at h
      · rename_i hlt
        obtain rfl : x = p := (List.cons.inj h).1
        have hnone : ps.find? (fun r => r.2 == x.2) = none := by
          rw [List.find?_eq_none]
          intro r hr
          have := hle r hr
          simp only [beq_iff_eq]
          omega
        refine ⟨List.forall_mem_append.2 ⟨fun r hr => ?_, by simp⟩, by simp [List.find?_append, hnone]⟩
        have := hle r hr
        omega
      · rename_i hlt
        obtain rfl : q = p := (List.cons.inj h).1
        exact ⟨List.forall_mem_append.2 ⟨hle, by simpa using hlt⟩, by simp [List.find?_append, hfind]⟩

theorem validate_of_head? {t : Text} {e : SyntaxError} (h : (syntaxErrors t).head? = some e) :
    validate t = .error e := by
  obtain ⟨es, hes⟩ := List.head?_eq_some_iff.1 h
  rw [validate, hes]

theorem head?_of_validate {t : Text} {e : SyntaxError} (h : validate t = .error e) :
    (syntaxErrors t).head? = some e := by
  rw [validate] at h
  split at h
  · cases h
  · rename_i first rest hes
    rw [hes, List.head?_cons, Except.error.inj h]

theorem problems_eq_nil_iff {t : Text} : problems t = [] ↔ validate t = .ok () := by
  rw [← byOffset_eq_nil_iff, ← ofText_snd, validate, syntaxErrors]
  cases (Document.ofText t).2 <;> simp

theorem validate_eq_ok_iff {t : Text} : validate t = .ok () ↔ faultsOf (lexemes t) = [] ∧
    (Parser.document.run { words := wordsOf (tokensOf (lexemes t)) }).2.complaints = [] := by
  rw [← problems_eq_nil_iff]
  simp [problems]

theorem validate_eq_error_iff {t : Text} {e : SyntaxError} :
    validate t = .error e ↔ ∃ p, IsFirst p (problems t) ∧ e = .located (LineIndex.ofText t) p := by
  rw [validate, syntaxErrors, ofText_snd]
  cases hsorted : byOffset (problems t) with
  | nil =>
    rw [byOffset_eq_nil_iff] at hsorted
    simp only [hsorted, List.map_nil, reduceCtorEq, false_iff, not_exists]
    exact fun p hp => absurd hp.1.mem (by simp)
  | cons q rest =>
    have hq := isFirst_of_byOffset hsorted
    constructor
    · intro h
      exact ⟨q, hq, (Except.error.inj h).symm⟩
    · rintro ⟨p, hp, rfl⟩
      rw [hp.unique hq]
      rfl

end GraphqlBuild.Graphql
