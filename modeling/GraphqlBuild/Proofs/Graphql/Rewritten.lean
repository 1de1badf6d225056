import GraphqlBuild.Proofs.Graphql.Lexer
import GraphqlBuild.Proofs.Graphql.Problems
/-!
# Texts that are rewritten in their strings

A rewriting of texts may leave all tokens as they are, but for what it makes of the text of a string and of
blanks (`Rewritten`). If it leaves a quotation mark that a string begins with, the grammar takes the tokens
for the same (`Rewritten.token`), and the rewritten text is valid exactly if the text is
(`Likeness.Words.validate_iff`).
-/

namespace GraphqlBuild.Graphql

/-- A token, and the same token of the text that `f` has rewritten. -/
structure Rewritten (f : Text → Text) (t t' : Token) : Prop where
  kind : t.kind = t'.kind
  text : t.kind ≠ .blank → t.kind ≠ .string → t.text = t'.text
  string : t.kind = .string → t.text.head? = some '"' ∧ t'.text = f t.text

/-- Lexemes without a fault, and those of the rewritten text. -/
structure RewrittenLexemes (f : Text → Text) (ls ls' : List Lexeme) : Prop where
  tokens : List.Forall₂ (Rewritten f) (tokensOf ls) (tokensOf ls')
  faultless : faultsOf ls' = []

variable {f : Text → Text}

theorem RewrittenLexemes.nil : RewrittenLexemes f [] [] := ⟨.nil, rfl⟩

theorem RewrittenLexemes.append {ls ls' ms ms' : List Lexeme} (h : RewrittenLexemes f ls ls')
    (hms : RewrittenLexemes f ms ms') : RewrittenLexemes f (ls ++ ms) (ls' ++ ms') where
  tokens := by
    rw [tokensOf_append, tokensOf_append]
    exact List.rel_append h.tokens hms.tokens
  faultless := by rw [faultsOf_append, h.faultless, hms.faultless, List.append_nil]

/-! ## What the grammar sees -/

/-- A string token becomes what `f` makes of it. Of complaints nothing is known but that there are as many. -/
def Likeness.rewriting (f : Text → Text) (strings : Text → Prop) : Likeness where
  strings x x' := strings x ∧ x' = f x
  complaints _ _ := True

theorem Likeness.values_rewriting (f : Text → Text) (strings : Text → Prop) : (rewriting f strings).values =
    fun v v' => ∃ x, strings x ∧ v = stringValue x ∧ v' = stringValue (f x) := by
  funext v v'
  simp [values, rewriting, Relation.Map, eq_comm, and_assoc]

/-- What begins with a quotation mark still does when rewritten. -/
def KeepsQuote (f : Text → Text) : Prop := ∀ x : Text, x.head? = some '"' → (f x).head? = some '"'

section KeepsQuote
variable {strings : Text → Prop} (hf : KeepsQuote f)
include hf

theorem Rewritten.token {t t' : Token} (h : Rewritten f t t') (hstring : t.kind = .string → strings t.text) :
    (Likeness.rewriting f strings).Token t t' where
  kind := h.kind
  text hseen := h.text fun hblank => by simp [hblank, Kind.isIgnored] at hseen
  spelling hkind := by
    obtain ⟨hhead, htext⟩ := h.string hkind
    exact .inr ⟨hhead, htext ▸ hf _ hhead⟩
  string hkind := ⟨hstring hkind, (h.string hkind).2⟩
  complaint _ := trivial
  instead _ := trivial

namespace Likeness

theorem tokens_rewriting_append {ts ts' rest rest' : List Graphql.Token} (h : List.Forall₂ (Rewritten f) ts ts')
    (hstring : ∀ t ∈ ts, t.kind = .string → strings t.text) (hrest : (rewriting f strings).Tokens rest rest') :
    (rewriting f strings).Tokens (ts ++ rest) (ts' ++ rest') := by
  induction h with
  | nil => exact hrest
  | cons ht _ ih =>
    obtain ⟨hfirst, hstring⟩ := List.forall_mem_cons.1 hstring
    exact .cons (ht.token hf hfirst) (ih hstring)

omit hf in
/-- In front of the two ends blanks and comments may be left over. -/
theorem tokens_rewriting_stop (more more' : List Graphql.Token) (offset offset' : Nat)
    (hmore : ∀ m ∈ more, m.kind = .blank ∨ m.kind = .comment)
    (hmore' : ∀ m ∈ more', m.kind = .blank ∨ m.kind = .comment) :
    (rewriting f strings).Tokens (more ++ [⟨.stop, "EOF", offset⟩]) (more' ++ [⟨.stop, "EOF", offset'⟩]) := by
  refine .stop ?_ rfl hmore hmore' fun _ _ _ _ => trivial
  exact ⟨rfl, fun _ _ => rfl, by simp, by simp, fun _ => trivial, fun _ => trivial⟩

end Likeness

end KeepsQuote

/-- Texts that the grammar cannot tell apart are both valid or both not. -/
theorem Likeness.Words.validate_iff {L : Likeness} {t t' : Text} (ht : faultsOf (lexemes t) = [])
    (ht' : faultsOf (lexemes t') = [])
    (h : L.Words (wordsOf (tokensOf (lexemes t))) (wordsOf (tokensOf (lexemes t')))) :
    validate t' = .ok () ↔ validate t = .ok () := by
  rw [validate_eq_ok_iff, validate_eq_ok_iff, ht, ht']
  refine and_congr Iff.rfl ?_
  rw [← List.length_eq_zero_iff, ← h.document.2.length_eq, List.length_eq_zero_iff]

/-! ## String tokens -/

/-- The string tokens of a text, in their quotation marks. -/
def stringTokens (t : Text) : List Text :=
  ((wordsOf (tokensOf (lexemes t))).filter fun w => w.kind == .string).map Word.text

theorem exists_word_of_mem {t : Token} {ts : List Token} (ht : t ∈ ts) (hseen : t.kind.isIgnored = false) :
    ∃ w ∈ wordsOf ts, w.kind = t.kind ∧ w.text = t.text := by
  induction ts with
  | nil => cases ht
  | cons u ts ih =>
    rcases List.mem_cons.1 ht with rfl | ht
    · simp [wordsOf, hseen]
    · obtain ⟨w, hw, hsame⟩ := ih ht
      rw [wordsOf]
      split
      · exact ⟨w, hw, hsame⟩
      · exact ⟨w, List.mem_cons_of_mem _ hw, hsame⟩

theorem exists_token_of_mem {w : Word} {ts : List Token} (hw : w ∈ wordsOf ts) : ∃ t ∈ ts, t.kind = w.kind := by
  induction ts with
  | nil => cases hw
  | cons t ts ih =>
    have hrest (hw : w ∈ wordsOf ts) : ∃ u ∈ t :: ts, u.kind = w.kind := by
      obtain ⟨u, hu, hkind⟩ := ih hw
      exact ⟨u, List.mem_cons_of_mem _ hu, hkind⟩
    rw [wordsOf] at hw
    split at hw
    · exact hrest hw
    · rcases List.mem_cons.1 hw with rfl | hw
      · exact ⟨t, List.mem_cons_self, rfl⟩
      · exact hrest hw

/-- A string token of a text, wherever reading it began. -/
theorem mem_stringTokens {t : Text} {ts : List Token} (h : wordsOf (tokensOf (lexemes t)) = wordsOf ts) {u : Token}
    (hu : u ∈ ts) (hkind : u.kind = .string) : u.text ∈ stringTokens t := by
  obtain ⟨w, hw, hsame, htext⟩ := exists_word_of_mem hu (by rw [hkind]; rfl)
  rw [stringTokens, h, ← htext]
  exact List.mem_map_of_mem (List.mem_filter.2 ⟨hw, by simp [hsame, hkind]⟩)

end GraphqlBuild.Graphql
