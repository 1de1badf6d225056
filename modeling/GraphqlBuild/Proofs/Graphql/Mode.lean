import GraphqlBuild.Proofs.Graphql.Blank
import Mathlib.Tactic.SplitIfs
/-!
# Where the lexer can go

The modes fall into three classes: plain ones, those inside strings, and that of comments. Within a token the
class does not change (`step_plain`, `step_inString`), so a token that is no string has been read in plain
modes and a string in the others. Only a quotation mark ends a string, and up to there it stays a quoted one or a
block string (`step_isOpen`). A string with a flaw keeps it to its end (`step_flawed`).
-/

namespace GraphqlBuild.Graphql

namespace Mode

/-- The lexer is in no string and no comment. -/
def isPlain : Mode → Bool
  | .ready | .blank | .name | .dot | .dots | .minus | .zero | .int | .point | .fraction | .exponent
  | .exponentSign | .exponentDigits => true
  | _ => false

/-- The lexer is in a string. -/
def inString (m : Mode) : Bool := !m.isPlain && m != .comment

/-- The lexer is in a quoted string, behind its first character. -/
def inQuoted : Mode → Bool
  | .chars _ | .escape _ | .unicode _ | .unicodeDigits .. | .pairBackslash .. | .pairLetter .. | .scalar .. => true
  | _ => false

/-- The lexer is in a block string, behind the quotation marks that begin it. -/
def inBlock : Mode → Bool
  | .block | .blockQuote | .blockQuotes | .blockEscape | .blockEscapeQuote | .blockEscapeQuotes => true
  | _ => false

/-- The lexer is in a string that goes on whatever follows. -/
def isOpen (m : Mode) : Bool := m == .quote || m.inQuoted || m.inBlock

/-- The last flaw of the string at hand. -/
def flaw? : Mode → Option Flaw
  | .chars flaw | .escape flaw | .unicode flaw | .unicodeDigits flaw .. | .pairBackslash flaw _
  | .pairLetter flaw _ | .scalar flaw .. => flaw
  | _ => none

theorem isPlain_or_inString {m : Mode} (h : m ≠ .comment) : m.isPlain = true ∨ m.inString = true := by
  cases hplain : m.isPlain <;> simp [inString, hplain, h]

theorem isPlain_of_inString {m : Mode} (h : m.inString = true) : m.isPlain = false := by
  simp only [inString, Bool.and_eq_true, Bool.not_eq_true'] at h
  exact h.1

theorem of_inQuoted {m : Mode} (h : m.inQuoted = true) :
    m.isOpen = true ∧ m.inString = true ∧ m ≠ .quote ∧ m.inBlock = false := by
  cases m with
  | chars | escape | unicode | unicodeDigits | pairBackslash | pairLetter | scalar => exact ⟨rfl, rfl, by simp, rfl⟩
  | _ => cases h

theorem of_inBlock {m : Mode} (h : m.inBlock = true) : m.isOpen = true ∧ m.inString = true ∧ m ≠ .quote := by
  cases m with
  | block | blockQuote | blockQuotes | blockEscape | blockEscapeQuote | blockEscapeQuotes => exact ⟨rfl, rfl, by simp⟩
  | _ => cases h

theorem isOpen_cases {m : Mode} (h : m.isOpen = true) : m = .quote ∨ m.inQuoted = true ∨ m.inBlock = true := by
  simpa [isOpen, or_assoc] using h

theorem isOpen_iff {m : Mode} : m.isOpen = true ↔ m.inString = true ∧ m ≠ .quotes := by
  cases m with
  | quotes => simp [isOpen, inQuoted, inBlock]
  | _ => simp [isOpen, inQuoted, inBlock, inString, isPlain]

end Mode

/-- Where the lexer stands behind the character. -/
def Step.mode : Step → Mode
  | more m => m
  | last _ => .ready

variable {c : Char} {m m' : Mode} {kind : Kind}

/-! ## How a token starts -/

/-- The step begins a token outside of strings, a string or a comment, or is a token that is no string. -/
def Step.Begins (c : Char) : Step → Prop
  | more m => m.isPlain = true ∧ m ≠ .ready ∧ (m = .blank → isIgnoredBlank c = true) ∨ m = .quote ∧ c = '"' ∨
      m = .comment ∧ c = '#'
  | last outcome => ∀ kind, outcome = .ok kind → kind ≠ .string ∧ kind ≠ .blank

theorem begin_begins (c : Char) : (begin c).Begins c := by
  have hplain {m : Mode} (hm : m.isPlain = true) (hready : m ≠ .ready) (hblank : m ≠ .blank) :
      (Step.more m).Begins c := .inl ⟨hm, hready, fun h => absurd h hblank⟩
  have hmark {kind : Kind} (hkind : kind ≠ .string ∧ kind ≠ .blank) : (Step.last (.ok kind)).Begins c := by
    rintro _ ⟨⟩
    exact hkind
  unfold begin
  split
  · rename_i hc
    exact .inl ⟨rfl, by simp, fun _ => hc⟩
  split
  · rename_i hc
    exact .inr (.inr ⟨rfl, hc⟩)
  split
  · exact hmark (by simp)
  split
  · exact hmark (by simp)
  split
  · exact hplain rfl (by simp) (by simp)
  split
  · exact hplain rfl (by simp) (by simp)
  split
  · exact hplain rfl (by simp) (by simp)
  split
  · exact hplain rfl (by simp) (by simp)
  split
  · exact hplain rfl (by simp) (by simp)
  split
  · rename_i hc
    exact .inr (.inl ⟨rfl, hc⟩)
  · intro kind h
    cases h

theorem begin_more (h : begin c = .more m) :
    m.isPlain = true ∧ m ≠ .ready ∧ (m = .blank → isIgnoredBlank c = true) ∨ m = .quote ∧ c = '"' ∨
      m = .comment ∧ c = '#' := by
  have hbegins := begin_begins c
  rwa [h] at hbegins

theorem begin_last (h : begin c = .last (.ok kind)) : kind ≠ .string ∧ kind ≠ .blank := by
  have hbegins := begin_begins c
  rw [h] at hbegins
  exact hbegins kind rfl

/-! ## Plain modes -/

theorem step_plain (hm : m.isPlain = true) (hready : m ≠ .ready) (h : step m c = some (.more m')) :
    m'.isPlain = true ∧ m' ≠ .ready ∧ (m' = .blank → isIgnoredBlank c = true) ∧ (m = .blank ↔ m' = .blank) := by
  cases m with
  | blank | name | dot | dots | minus | zero | int | point | fraction | exponent | exponentSign
  | exponentDigits =>
    simp only [step] at h
    split_ifs at h <;> cases h <;> simp_all [Mode.isPlain]
  | ready => exact absurd rfl hready
  | _ => cases hm

theorem spread_of_step_plain (hm : m.isPlain = true) (hready : m ≠ .ready) (h : step m c = some (.last (.ok kind))) :
    m ≠ .blank ∧ kind = .spread := by
  cases m with
  | blank | name | dot | dots | minus | zero | int | point | fraction | exponent | exponentSign
  | exponentDigits =>
    simp only [step] at h
    split_ifs at h <;> cases h <;> simp
  | ready => exact absurd rfl hready
  | _ => cases hm

theorem step_plain_last (hm : m.isPlain = true) (h : step m c = some (.last (.ok kind))) :
    m ≠ .blank ∧ kind ≠ .string ∧ kind ≠ .blank := by
  by_cases hready : m = .ready
  · subst hready
    exact ⟨by simp, begin_last (Option.some.inj h)⟩
  · obtain ⟨hblank, rfl⟩ := spread_of_step_plain hm hready h
    exact ⟨hblank, by simp, by simp⟩

theorem finish_plain (hm : m.isPlain = true) (h : finish m = some (.ok kind)) : kind ≠ .string := by
  cases m with
  | ready | blank | name | dot | dots | minus | zero | int | point | fraction | exponent | exponentSign
  | exponentDigits => cases h <;> simp
  | _ => cases hm

/-- Outside of strings no token but one of blanks has a blank in it. -/
theorem step_plain_of_isBlank {s : Step} (hm : m.isPlain = true) (hc : isBlank c = true) (h : step m c = some s) :
    isIgnoredBlank c = true ∧ s = .more .blank ∨ ∃ cause, s = .last (.error cause) := by
  rw [step_of_isBlank hc] at h
  cases m with
  | ready | blank =>
    simp only [blankStep] at h
    split at h
    · rename_i hignored
      cases h
      exact .inl ⟨hignored, rfl⟩
    · cases h <;> exact .inr ⟨_, rfl⟩
  | name | dot | dots | minus | zero | int | point | fraction | exponent | exponentSign | exponentDigits =>
    cases h <;> exact .inr ⟨_, rfl⟩
  | _ => cases hm

/-! ## Strings -/

/-- The step stays in such modes, or a quotation mark ends the string. -/
def Step.Stays (P : Mode → Bool) (c : Char) : Step → Prop
  | more m => P m = true
  | last outcome => c = '"' ∧ ∀ kind, outcome = .ok kind → kind = .string

theorem inChars_stays (flaw : Option Flaw) (c : Char) : (inChars flaw c).Stays Mode.inQuoted c := by
  unfold inChars
  split_ifs with hquote
  · refine ⟨hquote, ?_⟩
    cases flaw <;> simp [stringOutcome]
  · rfl
  · rfl
  · rfl

theorem afterUnicode_inQuoted (flaw : Option Flaw) (leading : Option Nat) (value : Nat) :
    (afterUnicode flaw leading value).inQuoted = true := by
  unfold afterUnicode
  split
  · split <;> rfl
  · split_ifs <;> rfl

theorem inUnicode_stays (flaw : Option Flaw) (leading : Option Nat) (count value : Nat) (c : Char) :
    (inUnicode flaw leading count value c).Stays Mode.inQuoted c := by
  unfold inUnicode
  split
  · dsimp only
    split
    · exact afterUnicode_inQuoted ..
    · rfl
  · split
    · rename_i hquote
      exact ⟨hquote, by simp⟩
    · rfl

theorem inScalar_stays (flaw : Option Flaw) (count value : Nat) (c : Char) :
    (inScalar flaw count value c).Stays Mode.inQuoted c := by
  unfold inScalar
  split
  · rfl
  · split
    · rfl
    · split
      · rename_i hquote
        exact ⟨hquote, by simp⟩
      · rfl

theorem step_inQuoted (hm : m.inQuoted = true) (c : Char) : ∃ s, step m c = some s ∧ s.Stays Mode.inQuoted c := by
  cases m with
  | chars flaw => exact ⟨_, rfl, inChars_stays flaw c⟩
  | unicodeDigits flaw leading count value => exact ⟨_, rfl, inUnicode_stays ..⟩
  | scalar flaw count value => exact ⟨_, rfl, inScalar_stays ..⟩
  | unicode flaw =>
    simp only [step]
    split
    · exact ⟨_, rfl, rfl⟩
    · exact ⟨_, rfl, inUnicode_stays ..⟩
  | escape flaw =>
    simp only [step]
    split_ifs <;> exact ⟨_, rfl, rfl⟩
  | pairBackslash flaw leading =>
    simp only [step]
    split_ifs with hbackslash hquote
    · exact ⟨_, rfl, rfl⟩
    · exact ⟨_, rfl, hquote, by simp⟩
    · exact ⟨_, rfl, rfl⟩
  | pairLetter flaw leading =>
    simp only [step]
    split <;> exact ⟨_, rfl, rfl⟩
  | _ => cases hm

theorem step_inBlock (hm : m.inBlock = true) (c : Char) : ∃ s, step m c = some s ∧ s.Stays Mode.inBlock c := by
  have hstays : (inBlock c).Stays Mode.inBlock c := by
    unfold inBlock
    split_ifs <;> rfl
  cases m with
  | block => exact ⟨_, rfl, hstays⟩
  | blockQuotes =>
    simp only [step]
    split
    · rename_i hquote
      exact ⟨_, rfl, hquote, by simp⟩
    · exact ⟨_, rfl, hstays⟩
  | blockQuote | blockEscapeQuote | blockEscapeQuotes =>
    simp only [step]
    split
    · exact ⟨_, rfl, rfl⟩
    · exact ⟨_, rfl, hstays⟩
  | blockEscape =>
    simp only [step]
    split_ifs <;> exact ⟨_, rfl, rfl⟩
  | _ => cases hm

/-- The first two quotation marks may be the empty string, or begin a block string. -/
theorem step_quote (c : Char) : step .quote c = some (.more .quotes) ∧ c = '"' ∨
    c ≠ '"' ∧ ∃ m, step .quote c = some (.more m) ∧ m.inQuoted = true := by
  by_cases hquote : c = '"'
  · exact .inl ⟨by simp [step, hquote], hquote⟩
  · refine .inr ⟨hquote, ?_⟩
    by_cases hbackslash : c = '\\'
    · exact ⟨.escape none, by simp [step, hbackslash], rfl⟩
    · exact ⟨.chars none, by simp [step, hquote, hbackslash], rfl⟩

/-- The step stays in a string, or ends one. -/
def Step.InString : Step → Prop
  | more m => m.inString = true
  | last outcome => ∀ kind, outcome = .ok kind → kind = .string

theorem Step.Stays.inString {P : Mode → Bool} {s : Step} (h : s.Stays P c) (hP : ∀ m, P m = true → m.inString = true) :
    s.InString := by
  cases s with
  | more m => exact hP m h
  | last outcome => exact h.2

theorem step_inString (hm : m.inString = true) {s : Step} (h : step m c = some s) : s.InString := by
  have hsame {s' : Step} (hs' : step m c = some s') (hstring : s'.InString) : s.InString := by
    rw [h] at hs'
    obtain rfl := Option.some.inj hs'
    exact hstring
  by_cases hquotes : m = .quotes
  · subst hquotes
    simp only [step] at h
    split at h
    · cases h
      rfl
    · cases h
  · rcases Mode.isOpen_cases (Mode.isOpen_iff.2 ⟨hm, hquotes⟩) with rfl | hquoted | hblock
    · rcases step_quote c with ⟨hs', -⟩ | ⟨-, m', hs', hm'⟩
      · exact hsame hs' rfl
      · exact hsame hs' (Mode.of_inQuoted hm').2.1
    · obtain ⟨s', hs', hstays⟩ := step_inQuoted hquoted c
      exact hsame hs' (hstays.inString fun _ h => (Mode.of_inQuoted h).2.1)
    · obtain ⟨s', hs', hstays⟩ := step_inBlock hblock c
      exact hsame hs' (hstays.inString fun _ h => (Mode.of_inBlock h).2.1)

/-- Nothing but a quotation mark ends a string; up to there it remains quoted or a block string. -/
theorem step_isOpen (hm : m.isOpen = true) (hc : m = .quote → c ≠ '"') :
    ∃ s, step m c = some s ∧
      ((∃ m', s = .more m' ∧ m'.isOpen = true ∧ m' ≠ .quote ∧ m'.inBlock = m.inBlock) ∨
        c = '"' ∧ ∃ outcome, s = .last outcome) := by
  have hstays {P : Mode → Bool} {s : Step} (hs : s.Stays P c)
      (hP : ∀ m', P m' = true → m'.isOpen = true ∧ m' ≠ .quote ∧ m'.inBlock = m.inBlock) :
      (∃ m', s = .more m' ∧ m'.isOpen = true ∧ m' ≠ .quote ∧ m'.inBlock = m.inBlock) ∨
        c = '"' ∧ ∃ outcome, s = .last outcome := by
    cases s with
    | more m' => exact .inl ⟨m', rfl, hP m' hs⟩
    | last outcome => exact .inr ⟨hs.1, outcome, rfl⟩
  rcases Mode.isOpen_cases hm with rfl | hquoted | hblock
  · rcases step_quote c with ⟨-, hquote⟩ | ⟨-, m', hs, hm'⟩
    · exact absurd hquote (hc rfl)
    · obtain ⟨hopen, -, hquote, hblock⟩ := Mode.of_inQuoted hm'
      exact ⟨_, hs, .inl ⟨m', rfl, hopen, hquote, hblock⟩⟩
  · obtain ⟨s, hs, hquotes⟩ := step_inQuoted hquoted c
    refine ⟨s, hs, hstays hquotes fun m' hm' => ?_⟩
    obtain ⟨hopen, -, hquote, hblock⟩ := Mode.of_inQuoted hm'
    exact ⟨hopen, hquote, by rw [hblock, (Mode.of_inQuoted hquoted).2.2.2]⟩
  · obtain ⟨s, hs, hblocks⟩ := step_inBlock hblock c
    refine ⟨s, hs, hstays hblocks fun m' hm' => ?_⟩
    obtain ⟨hopen, -, hquote⟩ := Mode.of_inBlock hm'
    exact ⟨hopen, hquote, by rw [hm', hblock]⟩

theorem exists_step_of_isOpen (hm : m.isOpen = true) (c : Char) : ∃ s, step m c = some s := by
  by_cases hc : m = .quote ∧ c = '"'
  · obtain ⟨rfl, rfl⟩ := hc
    exact ⟨_, rfl⟩
  · obtain ⟨s, hs, -⟩ := step_isOpen hm fun hquote hc' => hc ⟨hquote, hc'⟩
    exact ⟨s, hs⟩

theorem finish_inString (hm : m.inString = true) (h : finish m = some (.ok kind)) :
    m = .quotes ∧ kind = .string := by
  cases m <;> simp_all [finish, Mode.inString, Mode.isPlain]

/-- A blank goes on with a string, if it is not the empty one. -/
theorem step_inString_of_isBlank (hm : m.inString = true) (hc : isBlank c = true) :
    m = .quotes ∧ step m c = none ∨ ∃ m', step m c = some (.more m') ∧ m'.inString = true ∧ m' ≠ .quotes ∧
      (m'.flaw? = none → m' = .chars none ∨ m' = .block) := by
  rw [step_of_isBlank hc]
  cases m with
  | quotes => exact .inl ⟨rfl, rfl⟩
  | quote | escape | unicode | unicodeDigits | pairBackslash | pairLetter | scalar | block | blockQuote | blockQuotes
  | blockEscape | blockEscapeQuote | blockEscapeQuotes =>
    refine .inr ⟨_, rfl, rfl, by simp, ?_⟩
    simp [Mode.flaw?]
  | chars flaw => exact .inr ⟨_, rfl, rfl, by simp, fun h => .inl (congrArg Mode.chars h)⟩
  | _ => cases hm

theorem step_ne_ready (h : step m c = some (.more m')) : m' ≠ .ready := by
  rintro rfl
  by_cases hcomment : m = .comment
  · subst hcomment
    simp only [step] at h
    split at h <;> cases h
  · rcases Mode.isPlain_or_inString hcomment with hplain | hstring
    · by_cases hready : m = .ready
      · subst hready
        rcases begin_more (Option.some.inj h) with ⟨-, hne, -⟩ | ⟨hquote, -⟩ | ⟨hcomment, -⟩
        · exact hne rfl
        · cases hquote
        · cases hcomment
      · exact (step_plain hplain hready h).2.1 rfl
    · cases step_inString hstring h

/-! ## Flaws -/

/-- The step keeps a flaw, or ends in a fault. -/
def Step.Flawed : Step → Prop
  | more m => m.flaw?.isSome = true
  | last outcome => ∃ cause, outcome = .error cause

variable {flaw : Option Flaw} (hflaw : flaw.isSome = true)
include hflaw

theorem inChars_flawed (c : Char) : (inChars flaw c).Flawed := by
  unfold inChars
  split_ifs
  · obtain ⟨flaw, rfl⟩ := Option.isSome_iff_exists.1 hflaw
    exact ⟨_, rfl⟩
  · rfl
  · exact hflaw
  · exact hflaw

theorem afterUnicode_flawed (leading : Option Nat) (value : Nat) :
    (afterUnicode flaw leading value).flaw?.isSome = true := by
  unfold afterUnicode
  split
  · split
    · exact hflaw
    · rfl
  · split_ifs
    · exact hflaw
    · rfl
    · exact hflaw

theorem inUnicode_flawed (leading : Option Nat) (count value : Nat) (c : Char) :
    (inUnicode flaw leading count value c).Flawed := by
  unfold inUnicode
  split
  · dsimp only
    split
    · exact afterUnicode_flawed hflaw ..
    · exact hflaw
  · split
    · exact ⟨_, rfl⟩
    · rfl

theorem inScalar_flawed (count value : Nat) (c : Char) : (inScalar flaw count value c).Flawed := by
  unfold inScalar
  split
  · exact hflaw
  · split_ifs
    · rfl
    · exact hflaw
    · exact ⟨_, rfl⟩
    · rfl

omit hflaw in
theorem step_flawed {m : Mode} (hm : m.flaw?.isSome = true) (c : Char) : ∃ s, step m c = some s ∧ s.Flawed := by
  cases m with
  | chars flaw => exact ⟨_, rfl, inChars_flawed hm c⟩
  | unicodeDigits flaw leading count value => exact ⟨_, rfl, inUnicode_flawed hm ..⟩
  | scalar flaw count value => exact ⟨_, rfl, inScalar_flawed hm ..⟩
  | unicode flaw =>
    simp only [step]
    split_ifs
    · exact ⟨_, rfl, hm⟩
    · exact ⟨_, rfl, inUnicode_flawed hm ..⟩
  | escape flaw =>
    simp only [step]
    split_ifs
    · exact ⟨_, rfl, hm⟩
    · exact ⟨_, rfl, hm⟩
    · exact ⟨_, rfl, rfl⟩
  | pairBackslash flaw leading =>
    simp only [step]
    split_ifs
    · exact ⟨_, rfl, hm⟩
    · exact ⟨_, rfl, _, rfl⟩
    · exact ⟨_, rfl, rfl⟩
  | pairLetter flaw leading =>
    simp only [step]
    split_ifs
    · exact ⟨_, rfl, hm⟩
    · exact ⟨_, rfl, rfl⟩
  | _ => cases hm

omit hflaw in
theorem finish_flawed {m : Mode} (hm : m.flaw?.isSome = true) : finish m = some (.error .unterminatedString) := by
  cases m with
  | chars | escape | unicode | unicodeDigits | pairBackslash | pairLetter | scalar => rfl
  | _ => cases hm

end GraphqlBuild.Graphql
