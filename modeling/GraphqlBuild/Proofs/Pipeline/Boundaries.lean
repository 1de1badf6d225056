import Mathlib.Algebra.Ring.Parity
import GraphqlBuild.Proofs.Literal.Numbering
import GraphqlBuild.Proofs.Pipeline.Literals
/-!
# Literals and block boundaries

In a host module whose backticks do nothing but delimit blocks, those with odd numbers open a block and those
with even numbers close it, so the pieces with even indices are host code. A literal that opens at an even
number is host code between two blocks. The literals keep to the blocks just if no backtick with an even
number opens one, and then no host code is changed (`forall_extractLiterals_odd_iff`).
-/

namespace GraphqlBuild

/-- No backtick with an even number opens a literal. -/
def Literal.Aligned (tags : List Text) (source : Text) : Prop :=
  ∀ n, opens tags (List.splitOn backtick source) n = true → Odd n

namespace Pipeline

theorem exists_opens_of_mem_extractLiterals {p : Pipeline} {code : Text} {e : EmbeddedText}
    (h : e ∈ p.extractLiterals code) :
    ∃ n, Literal.opens p.options.tags (List.splitOn backtick code) n = true ∧
      (List.splitOn backtick code)[n]? = some e.source ∧
      Literal.Between (Literal.backticks code) e.interior n := by
  rw [extractLiterals, Literal.taggedLiterals_eq_found p.options.isIdentifier_of_mem_tags] at h
  obtain ⟨f, hf, rfl⟩ := List.mem_map.1 h
  have hopens := Literal.exists_opens_of_mem_found (Literal.backtick_notMem_of_mem_splitOn code)
    (LineIndex.ofText code) hf
  rwa [List.intercalate_splitOn] at hopens

theorem exists_mem_extractLiterals_of_opens {p : Pipeline} {code : Text} {n : Nat}
    (h : Literal.opens p.options.tags (List.splitOn backtick code) n = true) :
    ∃ e ∈ p.extractLiterals code, Literal.Between (Literal.backticks code) e.interior n := by
  rw [extractLiterals, Literal.taggedLiterals_eq_found p.options.isIdentifier_of_mem_tags]
  obtain ⟨f, hf, hbetween⟩ := Literal.exists_mem_found_of_opens (Literal.backtick_notMem_of_mem_splitOn code)
    (LineIndex.ofText code) 0 h
  rw [List.intercalate_splitOn] at hbetween
  exact ⟨_, List.mem_map_of_mem hf, hbetween⟩

/-- **Literals keep to the blocks** just if no backtick with an even number opens one. The new module
has the old pieces but for the new interiors, and then those with even indices are all old. -/
theorem forall_extractLiterals_odd_iff (p : Pipeline) (code : Text) :
    (∀ e ∈ p.extractLiterals code, backtick ∉ e.source ∧
      ∃ n, Literal.opens p.options.tags (List.splitOn backtick code) n = true ∧
        Literal.Between (Literal.backticks code) e.interior n) ∧
    ((∀ e ∈ p.extractLiterals code, ∃ n, Odd n ∧ Literal.Between (Literal.backticks code) e.interior n) ↔
      Literal.Aligned p.options.tags code) ∧
    ∀ out, p.transformLiterals code = some out →
      ∃ pieces : List Text, out.code = [backtick].intercalate pieces ∧
        (∀ n, pieces[n]? = (List.splitOn backtick code)[n]?.map fun s =>
          if Literal.opens p.options.tags (List.splitOn backtick code) n then p.newInterior s else s) ∧
        (Literal.Aligned p.options.tags code →
          ∀ n : Nat, Even n → pieces[n]? = (List.splitOn backtick code)[n]?) := by
  refine ⟨fun e he => ?_, ⟨fun hodd n hopens => ?_, fun hodd e he => ?_⟩, fun out hout => ?_⟩
  · obtain ⟨n, hopens, hsource, hbetween⟩ := exists_opens_of_mem_extractLiterals he
    exact ⟨Literal.backtick_notMem_of_mem_splitOn code _ (List.mem_of_getElem? hsource), n, hopens, hbetween⟩
  · obtain ⟨e, he, hbetween⟩ := exists_mem_extractLiterals_of_opens hopens
    obtain ⟨n', hodd', hbetween'⟩ := hodd e he
    rwa [hbetween.unique hbetween']
  · obtain ⟨n, hopens, -, hbetween⟩ := exists_opens_of_mem_extractLiterals he
    exact ⟨n, hodd n hopens, hbetween⟩
  · have hpieces := Literal.getElem?_renew p.options.tags p.newInterior (List.splitOn backtick code)
    refine ⟨_, code_of_transformLiterals hout, hpieces, fun hodd n heven => ?_⟩
    have hclosed : Literal.opens p.options.tags (List.splitOn backtick code) n = false := by
      rw [← Bool.not_eq_true]
      exact fun hopens => Nat.not_even_iff_odd.2 (hodd n hopens) heven
    simp [hpieces, hclosed]

/-- A tag that ends a block without a tag makes the host code behind the block a literal. -/
theorem host_code_between_blocks :
    let p : Pipeline := { options := Options.default }
    let code : Text := "x = `gql` + y + `z`"
    '\\' ∉ code ∧
      (¬∀ e ∈ p.extractLiterals code, ∃ n, Odd n ∧ Literal.Between (Literal.backticks code) e.interior n) ∧
      p.transformLiterals code = some { code := "x = `gql`+ y +`z`" } := by
  intro p code
  refine ⟨by decide, fun h => ?_, by decide⟩
  have hmem : ⟨" + y + ", some "gql", ⟨5, 17⟩, ⟨9, 16⟩, ⟨⟨0, 9⟩, ⟨0, 16⟩⟩⟩ ∈ p.extractLiterals code := by
    decide
  have hsecond : Literal.Between (Literal.backticks code) ⟨9, 16⟩ 2 := ⟨8, 16, by decide, by decide, rfl⟩
  obtain ⟨n, hodd, hbetween⟩ := h _ hmem
  obtain rfl := hbetween.unique hsecond
  exact absurd hodd (by decide)

end Pipeline

end GraphqlBuild
