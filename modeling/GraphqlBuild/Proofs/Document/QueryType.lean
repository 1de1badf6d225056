import GraphqlBuild.Document.QueryType
import GraphqlBuild.Proofs.Text.Collapse
/-!
# Detected query types

A query type is detected by comparing the first letters of a text, in any case, without looking where the word ends.
For the words that begin a definition that makes no difference: none of them has the beginning of another query type's
name (`detect_append`).
-/

namespace GraphqlBuild.QueryType

/-- The words that begin a definition, each with the query type of what it begins. -/
def openers : List (Text × QueryType) :=
  [("directive", query), ("enum", query), ("extend", query), ("fragment", fragment), ("input", query),
    ("interface", query), ("type", query), ("scalar", query), ("schema", query), ("union", query),
    ("query", query), ("mutation", mutation), ("subscription", subscription), ("\x7b", query)]

/-- Characters that a document may begin with and that hide its first keyword: the grammar ignores a comma and a byte
order mark, but they are no blanks, and a description begins with a quotation mark. -/
def covers : List Char := [',', '\ufeff', '"']

theorem mem_all (kind : QueryType) : kind ∈ all := by cases kind <;> decide

theorem opens_iff (kind : QueryType) (t : Text) : kind.opens t = true ↔ kind.name <+: t.map Char.toLower := by
  have hlower : kind.name.map Char.toLower = kind.name := by cases kind <;> decide
  rw [opens, Text.eqIgnoringCase, beq_iff_eq, hlower, List.map_take, List.prefix_iff_eq_take, eq_comm]

/-- Of a word and a query type's name neither begins with the other, unless they are the same. -/
theorem opens_append {word : Text} {type : QueryType} (h : (word, type) ∈ openers) (more : Text) (kind : QueryType) :
    kind.opens (word ++ more) = true ↔ word = kind.name := by
  have hapart : ∀ entry ∈ openers, entry.1.map Char.toLower = entry.1 ∧
      ∀ kind ∈ all, entry.1 = kind.name ∨ ¬kind.name <+: entry.1 ∧ ¬entry.1 <+: kind.name := by decide
  obtain ⟨hlower, hkinds⟩ := hapart _ h
  rw [opens_iff, List.map_append, hlower]
  constructor
  · intro hopens
    rcases hkinds kind (mem_all kind) with heq | ⟨hname, hword⟩
    · exact heq
    · rcases List.prefix_or_prefix_of_prefix hopens (List.prefix_append word _) with hprefix | hprefix
      · exact absurd hprefix hname
      · exact absurd hprefix hword
  · rintro rfl
    exact List.prefix_append _ _

theorem detect_cons {c : Char} (hc : isBlank c = false) (t : Text) :
    detect (c :: t) = (all.find? fun kind => kind.opens (c :: t)).getD query := by
  rw [detect, Text.trimStart, List.dropWhile_cons_of_neg (by simp [hc])]

theorem detect_append {word : Text} {type : QueryType} (h : (word, type) ∈ openers) (more : Text) :
    detect (word ++ more) = type := by
  have htypes : ∀ entry ∈ openers, entry.1.head?.map isBlank = some false ∧
      (all.find? fun kind => decide (entry.1 = kind.name)).getD query = entry.2 := by decide
  obtain ⟨hhead, htype⟩ := htypes _ h
  have hopens : (fun kind : QueryType => kind.opens (word ++ more)) = fun kind => decide (word = kind.name) := by
    funext kind
    rw [Bool.eq_iff_iff, opens_append h more kind, decide_eq_true_iff]
  cases word with
  | nil => cases hhead
  | cons c s =>
    have hc : isBlank c = false := by simpa using hhead
    rw [List.cons_append] at hopens ⊢
    rw [detect_cons hc, hopens]
    exact htype

/-- No name of a query type begins with such a character. -/
theorem detect_of_covers {c : Char} (h : c ∈ covers) (t : Text) : detect (c :: t) = query := by
  obtain ⟨hc, hkinds⟩ : isBlank c = false ∧ ∀ kind ∈ all, kind.name ≠ [] ∧ kind.name.head? ≠ some c.toLower := by
    simp only [covers, List.mem_cons, List.not_mem_nil, or_false] at h
    rcases h with rfl | rfl | rfl <;> decide
  have hnone : all.find? (fun kind => kind.opens (c :: t)) = none := by
    rw [List.find?_eq_none]
    intro kind hkind hopens
    obtain ⟨hne, hhead⟩ := hkinds kind hkind
    rw [opens_iff, List.map_cons, List.prefix_cons_iff] at hopens
    rcases hopens with hnil | ⟨s, hname, -⟩
    · exact hne hnil
    · rw [hname] at hhead
      exact hhead rfl
  rw [detect_cons hc, hnone]
  rfl

end GraphqlBuild.QueryType
