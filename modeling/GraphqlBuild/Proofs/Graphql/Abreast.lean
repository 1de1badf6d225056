import GraphqlBuild.Proofs.Graphql.Comment
import GraphqlBuild.Proofs.Graphql.Rewritten
/-!
# Two lexers abreast

A text and what has been rewritten of it, blanks and strings aside, are read by two lexers that go abreast: both
stand in the same mode, and what they have at hand is the same unless it is of blanks or of a string, which `R`
relates then (`Lexer.Abreast`). A character that the one reads and what is written for it keep them so
(`Lexer.Abreast.advance`), and the tokens they find are the same but for what is rewritten
(`Lexer.Abreast.flush`).
-/

namespace GraphqlBuild.Graphql

/-- What is at hand of a token, and what is of the same token of the rewritten text. -/
structure AtHand (R : Text → Text → Prop) (m : Mode) (x x' : Text) : Prop where
  plain : m.isPlain = true → m ≠ .blank → x = x'
  string : m.inString = true → x.head? = some '"' ∧ R x x'

/-- Where `c'` is written for `c`, strings that `R` relates are related by `R'` behind it. -/
structure Writes (R R' : Text → Text → Prop) (c c' : Char) : Prop where
  solid : isBlank c = false → c' = c
  quote : c = '"' → R' [c] [c]
  string {x x' : Text} : R x x' → R' (x ++ [c]) (x' ++ [c'])

/-! ## The token at hand -/

section AtHand
variable {R R' : Text → Text → Prop} {f : Text → Text} {m m' : Mode} {x x' : Text} {c c' : Char} {kind : Kind}

theorem AtHand.of_plain (hm : m.isPlain = true) (h : m ≠ .blank → x = x') : AtHand R m x x' where
  plain _ := h
  string hstring := by
    rw [Mode.isPlain_of_inString hstring] at hm
    cases hm

theorem AtHand.of_string (hm : m.inString = true) (hhead : x.head? = some '"') (h : R x x') : AtHand R m x x' where
  plain hplain := by
    rw [Mode.isPlain_of_inString hm] at hplain
    cases hplain
  string _ := ⟨hhead, h⟩

theorem head?_append_of_some {x y : Text} {q : Char} (h : x.head? = some q) : (x ++ y).head? = some q := by
  rw [List.head?_append, h]
  rfl

theorem isBlank_of_step_plain {s : Step} (hm : m.isPlain = true) (h : step m c = some s)
    (hs : s ≠ .more .blank ∧ ∀ cause, s ≠ .last (.error cause)) : isBlank c = false := by
  by_contra hc
  rw [Bool.not_eq_false] at hc
  rcases step_plain_of_isBlank hm hc h with ⟨-, hmore⟩ | ⟨cause, hlast⟩
  · exact hs.1 hmore
  · exact hs.2 cause hlast

variable (h : AtHand R m x x') (hm : m ≠ .comment)
include h hm

theorem AtHand.more (hw : Writes R R' c c') (hready : m = .ready → x = []) (hstep : step m c = some (.more m'))
    (hcomment : m' ≠ .comment) : AtHand R' m' (x ++ [c]) (x' ++ [c']) := by
  rcases Mode.isPlain_or_inString hm with hplain | hstring
  · have hsame (hblank : m ≠ .blank) (hblank' : m' ≠ .blank) : x ++ [c] = x' ++ [c'] := by
      have hsolid : isBlank c = false := isBlank_of_step_plain hplain hstep (by simpa using hblank')
      rw [h.plain hplain hblank, hw.solid hsolid]
    by_cases hbetween : m = .ready
    · subst hbetween
      rcases begin_more (Option.some.inj hstep) with ⟨hplain', -⟩ | ⟨rfl, rfl⟩ | ⟨rfl, -⟩
      · exact .of_plain hplain' (hsame (by simp))
      · rw [← hsame (by simp) (by simp), hready rfl]
        exact .of_string rfl rfl (hw.quote rfl)
      · exact absurd rfl hcomment
    · obtain ⟨hplain', -, -, hiff⟩ := step_plain hplain hbetween hstep
      exact .of_plain hplain' fun hblank => hsame (mt hiff.1 hblank) hblank
  · obtain ⟨hhead, hrelated⟩ := h.string hstring
    exact .of_string (step_inString hstring hstep) (head?_append_of_some hhead) (hw.string hrelated)

theorem AtHand.last (hw : Writes R R' c c') (hf : ∀ x x', R' x x' → x' = f x)
    (hstep : step m c = some (.last (.ok kind))) (offset offset' : Nat) :
    Rewritten f ⟨kind, x ++ [c], offset⟩ ⟨kind, x' ++ [c'], offset'⟩ := by
  rcases Mode.isPlain_or_inString hm with hplain | hstring
  · obtain ⟨hblank, hstring, -⟩ := step_plain_last hplain hstep
    have hsolid : isBlank c = false := isBlank_of_step_plain hplain hstep (by simp)
    refine ⟨rfl, fun _ _ => ?_, fun h => absurd h hstring⟩
    rw [h.plain hplain hblank, hw.solid hsolid]
  · have hkind : kind = .string := step_inString hstring hstep kind rfl
    obtain ⟨hhead, hrelated⟩ := h.string hstring
    exact ⟨rfl, fun _ h => absurd hkind h, fun _ => ⟨head?_append_of_some hhead, hf _ _ (hw.string hrelated)⟩⟩

theorem AtHand.finish (hf : ∀ x x', R x x' → x' = f x) (hfinish : finish m = some (.ok kind)) (offset offset' : Nat) :
    Rewritten f ⟨kind, x, offset⟩ ⟨kind, x', offset'⟩ := by
  rcases Mode.isPlain_or_inString hm with hplain | hstring
  · have hkind := finish_plain hplain hfinish
    refine ⟨rfl, fun hblank _ => h.plain hplain ?_, fun h => absurd h hkind⟩
    rintro rfl
    cases hfinish
    exact hblank rfl
  · obtain ⟨hhead, hrelated⟩ := h.string hstring
    exact ⟨rfl, fun _ h => absurd (finish_inString hstring hfinish).2 h, fun _ => ⟨hhead, hf _ _ hrelated⟩⟩

end AtHand

/-! ## The lexers -/

namespace Lexer
variable {R R' : Text → Text → Prop} {f : Text → Text} {lexer lexer' : Lexer} {c c' : Char} {s : Step}

/-- The second lexer reads the rewritten text; between two tokens nothing is at hand. -/
structure Abreast (R : Text → Text → Prop) (lexer lexer' : Lexer) : Prop where
  mode : lexer'.mode = lexer.mode
  comment : lexer.mode ≠ .comment
  atHand : AtHand R lexer.mode lexer.taken.reverse lexer'.taken.reverse
  ready : lexer.mode = .ready → lexer = between lexer.offset

theorem abreast_between (offset offset' : Nat) : Abreast R (between offset) (between offset') where
  mode := rfl
  comment := by simp [between]
  atHand := .of_plain rfl fun _ => rfl
  ready _ := rfl

theorem abreast_of_blank (hm : lexer.mode = .blank) (hm' : lexer'.mode = .blank) : Abreast R lexer lexer' where
  mode := hm'.trans hm.symm
  comment := by simp [hm]
  atHand := .of_plain (by rw [hm]; rfl) fun h => absurd hm h
  ready h := by
    rw [hm] at h
    cases h

variable (h : Abreast R lexer lexer')
include h

theorem Abreast.flush (hf : ∀ x x', R x x' → x' = f x) (hfault : faultsOf lexer.flush = []) :
    RewrittenLexemes f lexer.flush lexer'.flush := by
  unfold Lexer.flush at hfault ⊢
  rw [h.mode]
  cases hfinish : finish lexer.mode with
  | none => exact .nil
  | some outcome =>
    rw [hfinish] at hfault
    cases outcome with
    | ok kind => exact ⟨.cons (h.atHand.finish h.comment hf hfinish ..) .nil, rfl⟩
    | error cause => cases hfault

/-- What a step keeps. -/
theorem Abreast.take (hw : Writes R R' c c') (hf : ∀ x x', R' x x' → x' = f x) (hs : step lexer.mode c = some s)
    (hfault : faultsOf (lexer.take c s).1 = []) (hcomment : s.mode ≠ .comment) :
    RewrittenLexemes f (lexer.take c s).1 (lexer'.take c' s).1 ∧
      Abreast R' (lexer.take c s).2 (lexer'.take c' s).2 := by
  cases s with
  | more m =>
    have htaken (hm : lexer.mode = .ready) : lexer.taken.reverse = [] := by
      rw [h.ready hm]
      rfl
    refine ⟨.nil, rfl, hcomment, ?_, fun hm => absurd hm (step_ne_ready hs)⟩
    simpa [Lexer.take] using h.atHand.more h.comment hw htaken hs hcomment
  | last outcome =>
    obtain ⟨kind, rfl⟩ := faultsOf_take.1 hfault _ rfl
    refine ⟨⟨?_, rfl⟩, abreast_between ..⟩
    simpa [Lexer.take, Lexeme.ofOutcome] using h.atHand.last h.comment hw hf hs _ _

/-- What a character keeps if to the lexer what is written for it is as good. -/
theorem Abreast.advance (hw : Writes R R' c c') (hf : ∀ x x', R x x' → x' = f x) (hf' : ∀ x x', R' x x' → x' = f x)
    (hstep : step lexer.mode c' = step lexer.mode c) (hbegin : step lexer.mode c = none → begin c' = begin c)
    (hfault : faultsOf (lexer.advance c).1 = []) (hcomment : lexer.mode.next c ≠ .comment) :
    RewrittenLexemes f (lexer.advance c).1 (lexer'.advance c').1 ∧
      Abreast R' (lexer.advance c).2 (lexer'.advance c').2 := by
  have hstep' : step lexer'.mode c' = step lexer.mode c := by rw [h.mode, hstep]
  rcases advance_cases hfault with ⟨s, hs, hadvance, hfault'⟩ | ⟨hs, hflush, hfault', hadvance⟩
  · rw [Mode.next, hs, Option.getD_some] at hcomment
    rw [hadvance, advance_of_step_eq_some (hstep'.trans hs)]
    exact h.take hw hf' hs hfault' hcomment
  · -- the token at hand ends, and another one begins with the character
    rw [Mode.next, hs, Option.getD_none] at hcomment
    obtain ⟨hlexemes, hnext⟩ := (abreast_between lexer.offset lexer'.offset).take hw hf' (s := begin c) rfl
      hfault' hcomment
    rw [hadvance, advance_of_step_eq_none (hstep'.trans hs), advance_between, hbegin hs]
    exact ⟨(h.flush hf hflush).append hlexemes, hnext⟩

end Lexer

end GraphqlBuild.Graphql
