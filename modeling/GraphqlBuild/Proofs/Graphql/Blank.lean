import GraphqlBuild.Graphql.Token
import GraphqlBuild.Text.Blank
/-!
# The lexer at blanks

Of the blanks that trimming and collapsing know, the language ignores only some. `blankStep` says what any of
them does to the token at hand: none is part of a name or a number, and inside strings each stands for itself.
-/

namespace GraphqlBuild.Graphql

/-- The printable ASCII characters, and some more, are no blanks. -/
theorem isBlank_eq_false {c : Char} (h : 0x20 < c.toNat) (h' : c.toNat < 0x85) : isBlank c = false := by
  simp only [isBlank, CodeRange.cover, blankRanges, List.any_cons, List.any_nil, Bool.or_false, Bool.or_eq_false_iff,
    Bool.and_eq_false_iff, decide_eq_false_iff_not]
  omega

/-- A class of printable ASCII characters has no blank in it. -/
theorem eq_false_of_isBlank {c : Char} (hc : isBlank c = true) {b : Bool}
    (hb : b = true → 0x20 < c.toNat ∧ c.toNat < 0x85) : b = false := by
  rw [← Bool.not_eq_true]
  intro h
  rw [isBlank_eq_false (hb h).1 (hb h).2] at hc
  cases hc

section Classes
variable {c : Char} (hc : isBlank c = true)
include hc

theorem ne_of_isBlank {d : Char} (hd : isBlank d = false) : c ≠ d := by
  rintro rfl
  rw [hc] at hd
  cases hd

theorem isDigit_of_isBlank : c.isDigit = false := by
  refine eq_false_of_isBlank hc fun h => ?_
  simp only [Char.isDigit, Bool.and_eq_true, decide_eq_true_eq, UInt32.le_iff_toNat_le] at h
  change 48 ≤ c.toNat ∧ c.toNat ≤ 57 at h
  omega

theorem isAlpha_of_isBlank : c.isAlpha = false := by
  refine eq_false_of_isBlank hc fun h => ?_
  rcases Bool.or_eq_true_iff.1 h with hupper | hlower
  · have hrange : 65 ≤ c.toNat ∧ c.toNat ≤ 90 := of_decide_eq_true hupper
    omega
  · obtain ⟨hlow, hhigh⟩ := Bool.and_eq_true_iff.1 hlower
    have hlow : 97 ≤ c.toNat := of_decide_eq_true hlow
    have hhigh : c.toNat ≤ 122 := of_decide_eq_true hhigh
    omega

theorem startsName_of_isBlank : startsName c = false := by
  simpa [startsName, isAlpha_of_isBlank hc] using ne_of_isBlank hc (by decide)

theorem continuesName_of_isBlank : continuesName c = false := by
  simpa [continuesName, Char.isAlphanum, isAlpha_of_isBlank hc, isDigit_of_isBlank hc] using
    ne_of_isBlank hc (by decide)

theorem notMem_of_isBlank {t : Text} (ht : t.all (fun d => !isBlank d) = true) : t.contains c = false := by
  rw [List.contains_eq_mem, decide_eq_false_iff_not]
  intro h
  have hsolid := List.all_eq_true.1 ht c h
  rw [hc] at hsolid
  cases hsolid

theorem digitValue?_of_isBlank : digitValue? c = none := by
  have hlower : ¬('a' ≤ c ∧ c ≤ 'f') := by
    rintro ⟨h, h'⟩
    have hlow : 97 ≤ c.toNat := h
    have hhigh : c.toNat ≤ 102 := h'
    rw [isBlank_eq_false (by omega) (by omega)] at hc
    cases hc
  have hupper : ¬('A' ≤ c ∧ c ≤ 'F') := by
    rintro ⟨h, h'⟩
    have hlow : 65 ≤ c.toNat := h
    have hhigh : c.toNat ≤ 70 := h'
    rw [isBlank_eq_false (by omega) (by omega)] at hc
    cases hc
  simp [digitValue?, isDigit_of_isBlank hc, hlower, hupper]

theorem begin_of_isBlank :
    begin c = if isIgnoredBlank c then .more .blank else .last (.error (.unexpected c)) := by
  have hmarks : marks.contains c = false := notMem_of_isBlank hc (by decide)
  have hne {d : Char} : isBlank d = false → c ≠ d := ne_of_isBlank hc
  simp only [begin, hmarks, startsName_of_isBlank hc, isDigit_of_isBlank hc, if_neg (hne (d := '#') (by decide)),
    if_neg (hne (d := ',') (by decide)), if_neg (hne (d := '.') (by decide)), if_neg (hne (d := '-') (by decide)),
    if_neg (hne (d := '0') (by decide)), if_neg (hne (d := '"') (by decide)), Bool.false_eq_true, if_false]

end Classes

/-- What a blank does inside a token; `none` if the token ends before it. -/
def blankStep (c : Char) : Mode → Option Step
  | .ready => some (if isIgnoredBlank c then .more .blank else .last (.error (.unexpected c)))
  | .blank => if isIgnoredBlank c then some (.more .blank) else none
  | .comment => if endsLine c then none else some (.more .comment)
  | .name | .dots | .zero | .int | .fraction | .exponentDigits | .quotes => none
  | .dot => some (.last (.error .unterminatedSpread))
  | .minus => some (.last (.error (.afterMinus c)))
  | .point => some (.last (.error (.noFraction c)))
  | .exponent => some (.last (.error (.noExponent c)))
  | .exponentSign => some (.last (.error (.noExponentDigit c)))
  | .quote => some (.more (.chars none))
  | .chars flaw => some (.more (.chars (if endsLine c then some .lineTerminator else flaw)))
  | .escape _ => some (.more (.chars (some .escapedCharacter)))
  | .unicode _ | .unicodeDigits .. | .scalar .. => some (.more (.chars (some .badUnicode)))
  | .pairBackslash .. | .pairLetter .. => some (.more (.chars (some .unpairedSurrogate)))
  | .block | .blockQuote | .blockQuotes | .blockEscape | .blockEscapeQuote | .blockEscapeQuotes =>
    some (.more .block)

theorem step_of_isBlank {c : Char} (hc : isBlank c = true) (m : Mode) : step m c = blankStep c m := by
  have hne {d : Char} : isBlank d = false → c ≠ d := ne_of_isBlank hc
  have hquote : c ≠ '"' := hne (by decide)
  have hdot : c ≠ '.' := hne (by decide)
  have hbackslash : c ≠ '\\' := hne (by decide)
  have he : ¬(c = 'e' ∨ c = 'E') := by simp [hne (d := 'e') (by decide), hne (d := 'E') (by decide)]
  have hsign : ¬(c = '+' ∨ c = '-') := by simp [hne (d := '+') (by decide), hne (d := '-') (by decide)]
  have hdigit := isDigit_of_isBlank hc
  have hstart := startsName_of_isBlank hc
  have hvalue := digitValue?_of_isBlank hc
  have hletter : c ≠ 'u' := hne (by decide)
  have hbrace : c ≠ '{' := hne (by decide)
  have hclosing : c ≠ '}' := hne (by decide)
  cases m with
  | ready => simp only [step, blankStep, begin_of_isBlank hc]
  | blank => rfl
  | comment => rfl
  | name => simp only [step, blankStep, continuesName_of_isBlank hc, Bool.false_eq_true, if_false]
  | dot | dots => simp only [step, blankStep, if_neg hdot]
  | minus =>
    simp only [step, blankStep, if_neg (hne (d := '0') (by decide)), hdigit, Bool.false_eq_true, if_false]
  | zero | int | point | fraction | exponent | exponentSign | exponentDigits =>
    simp [step, blankStep, hdigit, hstart, hdot, he, hsign]
  | quote | quotes => simp only [step, blankStep, if_neg hquote, if_neg hbackslash]
  | chars flaw =>
    simp only [step, blankStep, inChars, if_neg hquote, if_neg hbackslash]
    split <;> rfl
  | escape flaw =>
    have hescapes : ("\"\\/bfnrt".toList).contains c = false := notMem_of_isBlank hc (by decide)
    simp only [step, blankStep, hescapes, if_neg hletter, Bool.false_eq_true, if_false]
  | unicode flaw => simp only [step, blankStep, inUnicode, hvalue, if_neg hquote, if_neg hbrace]
  | unicodeDigits flaw leading count value => simp only [step, blankStep, inUnicode, hvalue, if_neg hquote]
  | pairBackslash flaw leading => simp only [step, blankStep, if_neg hbackslash, if_neg hquote]
  | pairLetter flaw leading => simp only [step, blankStep, if_neg hletter]
  | scalar flaw count value =>
    simp only [step, blankStep, inScalar, hvalue, if_neg hclosing, if_neg hquote]
  | block | blockQuote | blockQuotes | blockEscape | blockEscapeQuote | blockEscapeQuotes =>
    simp only [step, blankStep, inBlock, if_neg hquote, if_neg hbackslash]

end GraphqlBuild.Graphql
