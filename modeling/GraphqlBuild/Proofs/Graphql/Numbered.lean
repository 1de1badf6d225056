import GraphqlBuild.Proofs.Graphql.Place
import GraphqlBuild.Proofs.Graphql.Spelling
/-!
# Strings and the places of their tokens

The string tokens of a text have numbers, from 0 in the order of the text. With each of them replaced by its number the
grammar reads a document in which a string says which token it comes from (`numberedDocument`). Where that has a number,
the document of the text has the value of the token with this number, and the document of any text with words that are
alike has the value of its own such token (`Likeness.Words.document_numbered`). So two documents may be compared string by
string.
-/

namespace GraphqlBuild.Graphql

/-- The number, one digit for each unit. -/
def tally (n : Nat) : Text := List.replicate n '1'

/-- The string token whose value is the number. -/
def tallyToken (n : Nat) : Text := '"' :: (tally n ++ ['"'])

/-- The words with a number in place of each string, the first of them `n`. -/
def numberStrings (n : Nat) : List Word → List Word
  | [] => []
  | w :: rest =>
    if w.kind = .string then { w with text := tallyToken n } :: numberStrings (n + 1) rest
    else w :: numberStrings n rest

/-- The document of a text, with the number of its token in place of each string. -/
def numberedDocument (t : Text) : Document :=
  (Parser.document.run { words := numberStrings 0 (wordsOf (tokensOf (lexemes t))) }).1

/-- A number, and the value of the token with this number. -/
def NumberOf (tokens : List Text) (number v : Text) : Prop :=
  ∃ i x, number = tally i ∧ tokens[i]? = some x ∧ v = stringValue x

theorem stringValue_tallyToken (n : Nat) : stringValue (tallyToken n) = tally n := by
  have hplain : unescapeFrom 0 (tally n) = tally n := by
    induction n with
    | zero => rfl
    | succ n ih => exact congrArg (List.cons '1') ih
  have hvalue : stringValue (tallyToken n) = unescapeFrom 0 (((tallyToken n).drop 1).dropLast) := by
    cases n <;> rfl
  rw [hvalue, tallyToken, List.drop_one, List.tail_cons, List.dropLast_concat, hplain]

/-! ## String words -/

/-- The texts of the strings among the words. -/
abbrev stringsOf (ws : List Word) : List Text := (ws.filter fun w => w.kind == .string).map Word.text

theorem stringsOf_cons_of_string {w : Word} (h : w.kind = .string) (ws : List Word) :
    stringsOf (w :: ws) = w.text :: stringsOf ws := by
  simp [stringsOf, h]

theorem stringsOf_cons_of_ne {w : Word} (h : w.kind ≠ .string) (ws : List Word) : stringsOf (w :: ws) = stringsOf ws := by
  simp [stringsOf, h]

theorem Spelled.head?_of_mem {tokens : List Token} {t : Text} (h : Spelled tokens t) :
    ∀ x ∈ stringsOf (wordsOf tokens), x.head? = some '"' := by
  induction h with
  | stop offset => simp [wordsOf, Kind.isIgnored]
  | @token kind x offset rest t hspells _ ih =>
    rw [wordsOf]
    split
    · exact ih
    · by_cases hkind : kind = .string
      · rw [stringsOf_cons_of_string hkind]
        subst hkind
        exact List.forall_mem_cons.2 ⟨hspells, ih⟩
      · rw [stringsOf_cons_of_ne hkind]
        exact ih

theorem head?_of_mem_stringTokens {t : Text} (ht : faultsOf (lexemes t) = []) :
    ∀ x ∈ stringTokens t, x.head? = some '"' :=
  (Lexer.spelled_run ht begun_ready : Spelled (tokensOf (lexemes t)) t).head?_of_mem

namespace Likeness
variable {L : Likeness} {ws ws' : List Graphql.Word}

/-- The same strings as tokens, rewritten. -/
theorem Words.stringsOf_eq {f : Text → Text} {strings : Text → Prop} (h : (rewriting f strings).Words ws ws') :
    stringsOf ws' = (stringsOf ws).map f := by
  induction h with
  | nil => rfl
  | @cons w w' rest rest' hw _ _ ih =>
    by_cases hkind : w.kind = .string
    · rw [stringsOf_cons_of_string hkind, stringsOf_cons_of_string (hw.kind ▸ hkind), List.map_cons, ih,
        (hw.string hkind).2]
    · rw [stringsOf_cons_of_ne hkind, stringsOf_cons_of_ne (hw.kind ▸ hkind), ih]

/-! ## Numbered words -/

/-- A number becomes the token with this number. -/
def numbering (tokens : List Text) : Likeness where
  strings x x' := ∃ i, x = tallyToken i ∧ tokens[i]? = some x'
  complaints _ _ := True

theorem values_numbering (tokens : List Text) : (numbering tokens).values = NumberOf tokens := by
  funext number v
  refine propext ⟨?_, ?_⟩
  · rintro ⟨_, x, ⟨i, rfl, hx⟩, rfl, rfl⟩
    exact ⟨i, x, stringValue_tallyToken i, hx, rfl⟩
  · rintro ⟨i, x, rfl, hx, rfl⟩
    exact ⟨_, x, ⟨i, rfl, hx⟩, stringValue_tallyToken i, rfl⟩

/-- Whether a closing bracket is missed behind a word does not depend on the texts of strings. -/
theorem isSome_closing?_numberStrings {v w : Graphql.Word} (h : v.trailing = w.trailing) (n : Nat)
    (rest : List Graphql.Word) : (closing? v (numberStrings n rest)).isSome = (closing? w rest).isSome := by
  unfold closing?
  rw [h]
  cases w.trailing with
  | some t => rfl
  | none =>
    cases rest with
    | nil => rfl
    | cons next rest =>
      by_cases hmark : next.kind = .mark ']' <;> by_cases hkind : next.kind = .string <;>
        simp [numberStrings, hmark, hkind]

theorem Closing.numberStrings {v w w' : Graphql.Word} (hv : v.trailing = w.trailing) {rest rest' : List Graphql.Word}
    (h : L.Closing w rest w' rest') (tokens : List Text) (n : Nat) :
    (numbering tokens).Closing v (numberStrings n rest) w' rest' := by
  rcases h with ⟨hnone, hnone'⟩ | ⟨q, q', hq, hq', -⟩
  · exact .inl ⟨hv.trans hnone, hnone'⟩
  · have hsome : (closing? v (Graphql.numberStrings n rest)).isSome = true := by
      rw [isSome_closing?_numberStrings hv, hq]
      rfl
    obtain ⟨q, hq⟩ := Option.isSome_iff_exists.1 hsome
    exact .inr ⟨q, q', hq, hq', trivial⟩

/-- By induction on the words; `n` counts the strings passed. -/
theorem Words.numberStrings (h : L.Words ws ws') (hquote : ∀ x ∈ stringsOf ws', x.head? = some '"')
    {tokens : List Text} {n : Nat} (htokens : tokens.drop n = stringsOf ws') :
    (numbering tokens).Words (numberStrings n ws) ws' := by
  induction h generalizing n with
  | nil => exact .nil
  | @cons w w' rest rest' hw hclosing _ ih =>
    rw [Graphql.numberStrings]
    split
    · rename_i hkind
      rw [stringsOf_cons_of_string (hw.kind ▸ hkind)] at hquote htokens
      obtain ⟨hhead, hquote⟩ := List.forall_mem_cons.1 hquote
      have htoken : tokens[n]? = some w'.text := by
        rw [← List.head?_drop, htokens, List.head?_cons]
      have hrest : tokens.drop (n + 1) = stringsOf rest' := by
        rw [← List.tail_drop, htokens, List.tail_cons]
      exact .cons ⟨hw.kind, hw.comma, fun h => absurd hkind h, .inr ⟨rfl, hhead⟩, fun _ => ⟨n, rfl, htoken⟩,
        fun _ => trivial, fun _ => trivial⟩ (hclosing.numberStrings rfl tokens (n + 1)) (ih hquote hrest)
    · rename_i hkind
      rw [stringsOf_cons_of_ne (hw.kind ▸ hkind)] at hquote htokens
      exact .cons ⟨hw.kind, hw.comma, hw.text, hw.spelling, fun h => absurd h hkind, fun _ => trivial, fun _ => trivial⟩
        (hclosing.numberStrings rfl tokens n) (ih hquote htokens)

/-- **Every string is the value of its own token**: the second document has it where the numbered document of the first
has the number. -/
theorem Words.document_numbered {t t' : Text}
    (h : L.Words (wordsOf (tokensOf (lexemes t))) (wordsOf (tokensOf (lexemes t'))))
    (ht' : faultsOf (lexemes t') = []) :
    Document.Alike (NumberOf (stringTokens t')) (numberedDocument t) (Document.ofText t').1 := by
  rw [← values_numbering]
  exact (h.numberStrings (head?_of_mem_stringTokens ht') (n := 0) rfl).document.1

end Likeness

theorem document_numbered {t : Text} (ht : faultsOf (lexemes t) = []) :
    Document.Alike (NumberOf (stringTokens t)) (numberedDocument t) (Document.ofText t).1 :=
  (Likeness.words_within (P := fun _ => True) fun _ _ => ⟨trivial, fun _ _ => trivial⟩).document_numbered ht

example : ParsedDocument.print ⟨[], numberedDocument "\x7b f(a: \"x\", b: [\"y\"]) \x7d"⟩ =
    ("\x7b\n  f(a: \"\", b: [\"1\"])\n\x7d\n" : Text) := by decide +kernel

end GraphqlBuild.Graphql
