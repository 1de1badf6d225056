import GraphqlBuild.Graphql.Parser.Document
import Mathlib.Data.List.Forall2
import Mathlib.Logic.Relation
/-!
# Parsing words that are alike

Two lists of words are alike if the grammar cannot tell them apart: they have the same kinds and, but for
strings, the same texts. A `Likeness` fixes what is known besides of the strings and of the complaints at
words that correspond. A parser respects it if from states that are alike it goes on to such states, with
results related by `Q` (`Likeness.Respects`); one lemma for each combinator carries this over to whatever is
built of them.
-/

namespace GraphqlBuild.Graphql

/-- How string tokens, and the complaints about words and their places, are related. -/
structure Likeness where
  strings : Text → Text → Prop
  complaints : Complaint × Nat → Complaint × Nat → Prop

/-- How the values of the strings are related. -/
def Likeness.values (L : Likeness) : Text → Text → Prop := Relation.Map L.strings stringValue stringValue

/-- The same tokens have the same values. -/
theorem Likeness.eq_of_values {L : Likeness} (hL : ∀ {x x'}, L.strings x x' → x = x') {v v' : Text}
    (h : L.values v v') : v = v' := by
  obtain ⟨x, x', hx, rfl, rfl⟩ := h
  rw [hL hx]

/-- The same text, or two texts in quotation marks. -/
def SameSpelling (t t' : Text) : Prop := t = t' ∨ t.head? = some '"' ∧ t'.head? = some '"'

theorem SameSpelling.eq_iff {t t' keyword : Text} (h : SameSpelling t t') (hk : keyword.head? ≠ some '"') :
    t = keyword ↔ t' = keyword := by
  rcases h with rfl | ⟨ht, ht'⟩
  · rfl
  · constructor
    · rintro rfl
      exact absurd ht hk
    · rintro rfl
      exact absurd ht' hk

/-- What `closeAfter` complains about behind a word with `rest` to come, if about anything. -/
def closing? (w : Word) (rest : List Word) : Option (Complaint × Nat) :=
  match w.trailing, rest with
  | some t, _ => some (.instead .rightBracket t.text, t.offset)
  | none, [] => none
  | none, next :: _ =>
    if next.kind = .mark ']' then none else some (.instead .rightBracket next.text, next.offset)

namespace Likeness
variable (L : Likeness)

/-- Words that the grammar takes for the same. -/
structure Word (w w' : Graphql.Word) : Prop where
  kind : w.kind = w'.kind
  comma : w.comma = w'.comma
  text : w.kind ≠ .string → w.text = w'.text
  spelling : SameSpelling w.text w'.text
  string : w.kind = .string → L.strings w.text w'.text
  complaint : ∀ c, L.complaints (c, w.offset) (c, w'.offset)
  instead : ∀ a, L.complaints (.instead a w.text, w.offset) (.instead a w'.text, w'.offset)

theorem Word.value {L : Likeness} {w w' : Graphql.Word} (h : L.Word w w') (hkind : w.kind = .string) :
    L.values (stringValue w.text) (stringValue w'.text) := ⟨_, _, h.string hkind, rfl, rfl⟩

/-- The same awaits a closing bracket behind the two words. -/
def Closing (w : Graphql.Word) (rest : List Graphql.Word) (w' : Graphql.Word) (rest' : List Graphql.Word) : Prop :=
  w.trailing = none ∧ w'.trailing = none ∨
    ∃ q q', closing? w rest = some q ∧ closing? w' rest' = some q' ∧ L.complaints q q'

/-- Lists of such words. -/
inductive Words : List Graphql.Word → List Graphql.Word → Prop
  | nil : Words [] []
  | cons {w w' : Graphql.Word} {rest rest' : List Graphql.Word} :
      L.Word w w' → L.Closing w rest w' rest' → Words rest rest' → Words (w :: rest) (w' :: rest')

/-- States with such words to come and such complaints behind them. -/
structure State (s s' : Parse) : Prop where
  words : L.Words s.words s'.words
  complaints : List.Forall₂ L.complaints s.complaints s'.complaints
  silent : s.silent = s'.silent

/-- From states that are alike the parsers go on to such states, with results related by `Q`. -/
def Respects {α : Type} (Q : α → α → Prop) (p p' : Parser α) : Prop :=
  ∀ s s', L.State s s' → Q (p.run s).1 (p'.run s').1 ∧ L.State (p.run s).2 (p'.run s').2

/-- The parser respects the likeness and has the same result. -/
abbrev Same {α : Type} (p : Parser α) : Prop := L.Respects Eq p p

variable {L} {α β : Type} {Q : α → α → Prop} {R : β → β → Prop}

/-! ## Monadic structure -/

theorem respects_pure {a a' : α} (h : Q a a') : L.Respects Q (pure a) (pure a') := fun _ _ hs => ⟨h, hs⟩

theorem same_pure (a : α) : L.Same (pure a) := respects_pure rfl

theorem Respects.bind {p p' : Parser α} {f f' : α → Parser β} (hp : L.Respects Q p p')
    (hf : ∀ a a', Q a a' → L.Respects R (f a) (f' a')) : L.Respects R (p >>= f) (p' >>= f') := by
  intro s s' hs
  obtain ⟨ha, hs⟩ := hp s s' hs
  exact hf _ _ ha _ _ hs

theorem Same.bind {p : Parser α} {f f' : α → Parser β} (hp : L.Same p) (hf : ∀ a, L.Respects R (f a) (f' a)) :
    L.Respects R (p >>= f) (p >>= f') :=
  Respects.bind hp fun a a' heq => by
    cases heq
    exact hf a

theorem Respects.map {p p' : Parser α} {f f' : α → β} (hp : L.Respects Q p p')
    (hf : ∀ a a', Q a a' → R (f a) (f' a')) : L.Respects R (f <$> p) (f' <$> p') := by
  intro s s' hs
  obtain ⟨ha, hs⟩ := hp s s' hs
  exact ⟨hf _ _ ha, hs⟩

theorem Respects.ite {c : Prop} [Decidable c] {p p' q q' : Parser α} (hp : L.Respects Q p p')
    (hq : L.Respects Q q q') : L.Respects Q (if c then p else q) (if c then p' else q') := by
  split
  · exact hp
  · exact hq

theorem Respects.iteIff {c c' : Prop} [Decidable c] [Decidable c'] {p p' q q' : Parser α} (h : c ↔ c')
    (hp : L.Respects Q p p') (hq : L.Respects Q q q') :
    L.Respects Q (if c then p else q) (if c' then p' else q') := by
  by_cases hc : c
  · rwa [if_pos hc, if_pos (h.1 hc)]
  · rwa [if_neg hc, if_neg (mt h.2 hc)]

/-- A choice by a keyword. -/
theorem Respects.iteKeyword {t t' keyword : Text} {p p' q q' : Parser α} (h : SameSpelling t t')
    (hk : keyword.head? ≠ some '"') (hp : L.Respects Q p p') (hq : L.Respects Q q q') :
    L.Respects Q (if t = keyword then p else q) (if t' = keyword then p' else q') :=
  .iteIff (h.eq_iff hk) hp hq

/-- A parser that is run only under a condition, and what follows it in either case. -/
theorem Respects.when {c : Prop} [Decidable c] {p : Parser Unit} {f f' : Unit → Parser α} (hp : L.Same p)
    (hf : L.Respects Q (f ()) (f' ())) :
    L.Respects Q (if c then p >>= f else f ()) (if c then p >>= f' else f' ()) :=
  .ite (hp.bind fun _ => hf) hf

theorem respects_get : L.Respects L.State get get := fun _ _ hs => ⟨hs, hs⟩

theorem Words.length_eq {ws ws' : List Graphql.Word} (h : L.Words ws ws') : ws.length = ws'.length := by
  induction h with
  | nil => rfl
  | cons _ _ _ ih => rw [List.length_cons, List.length_cons, ih]

/-! ## The word at hand -/

theorem Words.head? {ws ws' : List Graphql.Word} (h : L.Words ws ws') : Option.Rel L.Word ws.head? ws'.head? := by
  cases h with
  | nil => exact .none
  | cons hw _ _ => exact .some hw

theorem respects_word : L.Respects (Option.Rel L.Word) Parser.word Parser.word := fun _ _ hs => ⟨hs.words.head?, hs⟩

theorem same_isKind (kind : Kind) : L.Same (Parser.isKind kind) := by
  refine respects_word.bind fun o o' ho => respects_pure ?_
  cases ho with
  | some hw => simp only [Option.any_some, hw.kind]
  | none => rfl

theorem same_isMark (c : Char) : L.Same (Parser.isMark c) := same_isKind _

theorem same_isName : L.Same Parser.isName := same_isKind _

theorem same_isText {t : Text} (ht : t.head? ≠ some '"') : L.Same (Parser.isText t) := by
  refine respects_word.bind fun o o' ho => respects_pure ?_
  cases ho with
  | some hw =>
    rw [Option.any_some, Option.any_some, Bool.eq_iff_iff, beq_iff_eq, beq_iff_eq]
    exact hw.spelling.eq_iff ht
  | none => rfl

theorem same_isNameOr (c : Char) : L.Same (Parser.isNameOr c) :=
  same_isName.bind fun _ => (same_isMark c).bind fun _ => same_pure _

theorem same_isNameOrString : L.Same Parser.isNameOrString :=
  same_isName.bind fun _ => (same_isKind .string).bind fun _ => same_pure _

/-- The same kind, and the same text but for strings. -/
structure Announced (a a' : Kind × Text) : Prop where
  kind : a.1 = a'.1
  text : a.1 ≠ .string → a.2 = a'.2
  spelling : SameSpelling a.2 a'.2

theorem respects_second : L.Respects (Option.Rel Announced) Parser.second Parser.second := by
  refine respects_get.bind fun ⟨words, _, _⟩ ⟨words', _, _⟩ hs => ?_
  cases hs.words with
  | nil => exact respects_pure .none
  | @cons w w' rest rest' hw _ hrest =>
    simp only [hw.comma]
    refine .ite (respects_pure (.some ⟨rfl, fun _ => rfl, .inl rfl⟩)) (respects_pure ?_)
    cases hrest with
    | nil => exact .none
    | cons hnext _ _ => exact .some ⟨hnext.kind, hnext.text, hnext.spelling⟩

theorem same_skip : L.Same Parser.skip := by
  refine fun s s' hs => ⟨rfl, ?_, hs.complaints, hs.silent⟩
  obtain ⟨words, _, _⟩ := s
  obtain ⟨words', _, _⟩ := s'
  cases hs.words with
  | nil => exact .nil
  | cons _ _ hrest => exact hrest

/-! ## Complaints -/

theorem respects_complainAt {c c' : Complaint} {n n' : Nat} (h : L.complaints (c, n) (c', n')) :
    L.Respects Eq (Parser.complainAt n c) (Parser.complainAt n' c') := by
  intro s s' hs
  refine ⟨rfl, ?_⟩
  change L.State (if s.silent then s else _) (if s'.silent then s' else _)
  rw [← hs.silent]
  split
  · exact hs
  · exact ⟨hs.words, .cons h hs.complaints, rfl⟩

theorem same_complain (c : Complaint) : L.Same (Parser.complain c) := by
  refine respects_word.bind fun o o' ho => ?_
  cases ho with
  | some hw => exact respects_complainAt (hw.complaint c)
  | none => exact same_pure ()

theorem same_reject (c : Complaint) : L.Same (Parser.reject c) := (same_complain c).bind fun _ => same_skip

theorem same_tooDeep : L.Same Parser.tooDeep :=
  (same_complain .tooDeep).bind fun _ _ _ hs => ⟨rfl, hs.words, hs.complaints, rfl⟩

theorem same_await (awaited : Awaited) : L.Same (Parser.await awaited) := by
  refine respects_word.bind fun o o' ho => ?_
  cases ho with
  | some hw =>
    simp only [hw.kind]
    exact .ite same_skip (respects_complainAt (hw.instead awaited))
  | none => exact same_pure ()

/-! ## Choice and repetition -/

theorem respects_whenever {test : Parser Bool} {a a' : α} {p p' : Parser α} (htest : L.Same test) (ha : Q a a')
    (hp : L.Respects Q p p') : L.Respects Q (Parser.whenever test a p) (Parser.whenever test a' p') :=
  htest.bind fun _ => .ite hp (respects_pure ha)

theorem respects_orComplain {test : Parser Bool} {missing : Complaint} {a a' : α} {p p' : Parser α}
    (htest : L.Same test) (ha : Q a a') (hp : L.Respects Q p p') :
    L.Respects Q (Parser.orComplain test missing a p) (Parser.orComplain test missing a' p') :=
  htest.bind fun _ => .ite hp ((same_complain missing).bind fun _ => respects_pure ha)

/-- By induction on the number of rounds. -/
theorem respects_repeatUpTo {test : Parser Bool} {item item' : Parser α} (htest : L.Same test)
    (hitem : L.Respects Q item item') (n : Nat) :
    L.Respects (List.Forall₂ Q) (Parser.repeatUpTo test item n) (Parser.repeatUpTo test item' n) := by
  induction n with
  | zero => exact respects_pure .nil
  | succ n ih =>
    exact htest.bind fun _ => .ite
      (hitem.bind fun a a' ha => ih.bind fun as as' has => respects_pure (.cons ha has)) (respects_pure .nil)

theorem respects_repeatWhile {test : Parser Bool} {item item' : Parser α} (htest : L.Same test)
    (hitem : L.Respects Q item item') :
    L.Respects (List.Forall₂ Q) (Parser.repeatWhile test item) (Parser.repeatWhile test item') := by
  refine respects_get.bind fun s s' hs => ?_
  rw [hs.words.length_eq]
  exact respects_repeatUpTo htest hitem _

theorem respects_someWhile {test : Parser Bool} {missing : Complaint} {item item' : Parser α}
    (htest : L.Same test) (hitem : L.Respects Q item item') :
    L.Respects (List.Forall₂ Q) (Parser.someWhile test missing item) (Parser.someWhile test missing item') :=
  htest.bind fun _ => .when (same_complain missing) (respects_repeatWhile htest hitem)

theorem Respects.same {items : Parser (List α)} (h : L.Respects (List.Forall₂ Eq) items items) : L.Same items := by
  rwa [List.forall₂_eq_eq_eq] at h

theorem respects_separated {c : Char} {item item' : Parser α} (hitem : L.Respects Q item item') :
    L.Respects (List.Forall₂ Q) (Parser.separated c item) (Parser.separated c item') :=
  (same_isMark c).bind fun _ => .when same_skip <| hitem.bind fun _ _ ha =>
    (respects_repeatWhile (same_isMark c) (same_skip.bind fun _ => hitem)).bind fun _ _ has =>
      respects_pure (.cons ha has)

end Likeness

end GraphqlBuild.Graphql
