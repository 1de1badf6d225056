import GraphqlBuild.Proofs.Graphql.Abreast
/-!
# Tokens spell their text

Put one behind the other, the tokens of a text without lexical faults are the text again, and each of them begins as
its kind does (`Lexer.spelled_run`). So a text that begins with nothing the grammar ignores begins with its first word
(`Spelled.exists_word`).
-/

namespace GraphqlBuild.Graphql

/-- The characters can be a token of that kind, as far as their first one tells. -/
def Kind.Spells : Kind → Text → Prop
  | .blank, x => ∃ c ∈ x.head?, isIgnoredBlank c = true
  | .comment, x => x.head? = some '#'
  | .comma, x => x = [',']
  | .mark c, x => x = [c]
  | .string, x => x.head? = some '"'
  | .spread, x | .name, x | .int, x | .float, x => x ≠ []
  | .stop, _ => False

/-- The tokens up to the end of the text are the text, cut into pieces. -/
inductive Spelled : List Token → Text → Prop
  | stop (offset : Nat) : Spelled [⟨.stop, "EOF", offset⟩] []
  | token {kind : Kind} {x : Text} (offset : Nat) {rest : List Token} {t : Text} :
      kind.Spells x → Spelled rest t → Spelled (⟨kind, x, offset⟩ :: rest) (x ++ t)

/-! ## The token at hand -/

variable {m m' : Mode} {x : Text} {c : Char} {kind : Kind}

/-- The characters of the token at hand begin as the mode tells. -/
structure Begun (m : Mode) (x : Text) : Prop where
  ready : m = .ready ↔ x = []
  blank : m = .blank → ∃ c ∈ x.head?, isIgnoredBlank c = true
  comment : m = .comment → x.head? = some '#'
  string : m.inString = true → x.head? = some '"'

theorem begun_ready : Begun .ready [] := ⟨by simp, by simp, by simp, by simp [Mode.inString, Mode.isPlain]⟩

/-- Within a token no other class of modes is entered. -/
theorem class_of_step (hready : m ≠ .ready) (h : step m c = some (.more m')) :
    (m' = .blank → m = .blank) ∧ (m' = .comment → m = .comment) ∧ (m'.inString = true → m.inString = true) := by
  by_cases hcomment : m = .comment
  · subst hcomment
    simp only [step] at h
    split at h
    · cases h
    · cases h
      simp [Mode.inString]
  · rcases Mode.isPlain_or_inString hcomment with hplain | hstring
    · obtain ⟨hplain', -, -, hblank⟩ := step_plain hplain hready h
      refine ⟨hblank.2, ?_, fun hstring => ?_⟩
      · rintro rfl
        cases hplain'
      · rw [Mode.isPlain_of_inString hstring] at hplain'
        cases hplain'
    · have hstring' : m'.inString = true := step_inString hstring h
      refine ⟨?_, ?_, fun _ => hstring⟩
      · rintro rfl
        cases hstring'
      · rintro rfl
        cases hstring'

theorem Begun.more (hx : Begun m x) (h : step m c = some (.more m')) : Begun m' (x ++ [c]) := by
  have hready' : m' = .ready ↔ x ++ [c] = [] := by simp [step_ne_ready h]
  by_cases hready : m = .ready
  · obtain rfl := hx.ready.1 hready
    subst hready
    rcases begin_more (Option.some.inj h) with ⟨hplain, -, hblank⟩ | ⟨rfl, rfl⟩ | ⟨rfl, rfl⟩
    · refine ⟨hready', fun hm => ⟨c, rfl, hblank hm⟩, ?_, fun hstring => ?_⟩
      · rintro rfl
        cases hplain
      · rw [Mode.isPlain_of_inString hstring] at hplain
        cases hplain
    · exact ⟨hready', by simp, by simp, fun _ => rfl⟩
    · exact ⟨hready', by simp, fun _ => rfl, by simp [Mode.inString]⟩
  · obtain ⟨hblank, hcomment, hstring⟩ := class_of_step hready h
    obtain ⟨d, x, rfl⟩ := List.exists_cons_of_ne_nil (mt hx.ready.2 hready)
    exact ⟨hready', fun hm => hx.blank (hblank hm), fun hm => hx.comment (hcomment hm),
      fun hm => hx.string (hstring hm)⟩

theorem begin_last_cases (h : begin c = .last (.ok kind)) : kind = .comma ∧ c = ',' ∨ kind = .mark c := by
  unfold begin at h
  split_ifs at h with _ _ hcomma <;> cases h
  · exact .inl ⟨rfl, hcomma⟩
  · exact .inr rfl

theorem Begun.last (hx : Begun m x) (h : step m c = some (.last (.ok kind))) : kind.Spells (x ++ [c]) := by
  by_cases hready : m = .ready
  · obtain rfl := hx.ready.1 hready
    subst hready
    rcases begin_last_cases (Option.some.inj h) with ⟨rfl, rfl⟩ | rfl <;> rfl
  · by_cases hcomment : m = .comment
    · subst hcomment
      simp only [step] at h
      split at h <;> cases h
    · rcases Mode.isPlain_or_inString hcomment with hplain | hstring
      · obtain ⟨-, rfl⟩ := spread_of_step_plain hplain hready h
        simp [Kind.Spells]
      · obtain rfl : kind = .string := step_inString hstring h kind rfl
        exact head?_append_of_some (hx.string hstring)

theorem Begun.finish (hx : Begun m x) (h : finish m = some (.ok kind)) : kind.Spells x := by
  cases m with
  | blank =>
    cases h
    exact hx.blank rfl
  | comment =>
    cases h
    exact hx.comment rfl
  | quotes =>
    cases h
    exact hx.string rfl
  | name | zero | int | fraction | exponentDigits =>
    cases h
    exact mt hx.ready.2 (by simp)
  | _ => cases h

/-! ## The run -/

namespace Lexer
variable {lexer : Lexer} {s : Step} {t : Text}

theorem spelled_flush (hx : Begun lexer.mode lexer.taken.reverse) (hfault : faultsOf lexer.flush = [])
    {rest : List Token} (h : Spelled rest t) :
    Spelled (tokensOf lexer.flush ++ rest) (lexer.taken.reverse ++ t) := by
  unfold flush at hfault ⊢
  cases hfinish : finish lexer.mode with
  | none =>
    have hready : lexer.mode = .ready := by
      cases hm : lexer.mode with
      | ready => rfl
      | _ => simp [hm, Graphql.finish] at hfinish
    rw [hx.ready.1 hready]
    exact h
  | some outcome =>
    cases outcome with
    | ok kind => exact .token lexer.start (hx.finish hfinish) h
    | error cause => simp [hfinish, Lexeme.ofOutcome] at hfault

/-- With a character that belongs to the token at hand, provided the rest of the text is spelled. -/
theorem spelled_take (lexer : Lexer) (hx : Begun lexer.mode lexer.taken.reverse) (hs : step lexer.mode c = some s)
    (hfault : faultsOf (lexer.take c s).1 = [])
    (hrest : ∀ next : Lexer, next = (lexer.take c s).2 → Begun next.mode next.taken.reverse →
      Spelled (tokensOf (next.run t)) (next.taken.reverse ++ t)) :
    Spelled (tokensOf (lexer.take c s).1 ++ tokensOf ((lexer.take c s).2.run t)) (lexer.taken.reverse ++ c :: t) := by
  cases s with
  | more m =>
    have hnext := hrest _ rfl (by simpa [take] using hx.more hs)
    simpa [take] using hnext
  | last outcome =>
    obtain ⟨kind, rfl⟩ := faultsOf_take.1 hfault outcome rfl
    have htoken := Spelled.token lexer.start (hx.last hs) (hrest _ rfl begun_ready)
    simpa [take, between, Lexeme.ofOutcome] using htoken

/-- By induction on the text, from wherever the lexer stands. -/
theorem spelled_run (h : lexer.Sound t) (hx : Begun lexer.mode lexer.taken.reverse) :
    Spelled (tokensOf (lexer.run t)) (lexer.taken.reverse ++ t) := by
  induction t generalizing lexer with
  | nil =>
    rw [run_nil, tokensOf_append]
    exact spelled_flush hx (sound_nil.1 h) (.stop lexer.offset)
  | cons c t ih =>
    obtain ⟨hfault, hsound⟩ := sound_cons.1 h
    rw [run_cons, tokensOf_append]
    rcases advance_cases hfault with ⟨s, hs, hadvance, hfault⟩ | ⟨-, hflush, hfault, hadvance⟩
    · rw [hadvance] at hsound ⊢
      exact spelled_take lexer hx hs hfault fun next hnext hbegun => ih (hnext ▸ hsound) hbegun
    · rw [hadvance] at hsound ⊢
      rw [tokensOf_append, List.append_assoc]
      refine spelled_flush hx hflush ?_
      exact spelled_take (between lexer.offset) begun_ready rfl hfault fun next hnext hbegun =>
        ih (hnext ▸ hsound) hbegun

end Lexer

/-! ## The first word -/

/-- There is a first word, and the text begins with it unless it begins with something ignored. -/
theorem Spelled.exists_word {tokens : List Token} {t : Text} (h : Spelled tokens t) :
    ∃ w rest, wordsOf tokens = w :: rest ∧
      ((∀ c ∈ t.head?, isIgnoredBlank c = false ∧ c ≠ '#' ∧ c ≠ ',') →
        w.kind = .stop ∨ ∃ more, t = w.text ++ more ∧ w.kind.Spells w.text) := by
  induction h with
  | stop offset => exact ⟨_, _, rfl, fun _ => .inl rfl⟩
  | @token kind x offset rest t hspells _ ih =>
    cases hignored : kind.isIgnored with
    | false => exact ⟨_, _, by rw [wordsOf, hignored]; rfl, fun _ => .inr ⟨t, rfl, hspells⟩⟩
    | true =>
      obtain ⟨w, words, hwords, -⟩ := ih
      refine ⟨w, words, by rw [wordsOf_cons_of_ignored hignored, hwords], fun hhead => ?_⟩
      cases kind with
      | blank =>
        obtain ⟨c, hc, hblank⟩ := hspells
        rw [(hhead c (head?_append_of_some hc)).1] at hblank
        cases hblank
      | comment => exact absurd rfl (hhead '#' (head?_append_of_some hspells)).2.1
      | comma =>
        obtain rfl : x = [','] := hspells
        exact absurd rfl (hhead ',' rfl).2.2
      | _ => cases hignored

end GraphqlBuild.Graphql
