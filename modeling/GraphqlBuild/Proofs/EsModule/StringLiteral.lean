import GraphqlBuild.Graphql.Token
import GraphqlBuild.Json.Quoted
import Mathlib.Tactic.SplitIfs
/-!
# String literals of ECMAScript 2019

`stringLiteral?` reads a string literal of strict code from the beginning of a text: the code units that it
stands for and what follows its closing quotation mark. Nothing but that mark ends a literal; a raw line feed
or carriage return, an escape that the language does not have and the end of the text make it none. What
`Json.quoted` writes is read back whatever follows (`stringLiteral?_quoted`).
-/

namespace GraphqlBuild

/-! ## Code units -/

/-- The UTF-16 code units of a code point. -/
def utf16 (code : Nat) : List UInt16 :=
  if code < 0x10000 then [.ofNat code]
  else [.ofNat (0xd800 + (code - 0x10000) / 0x400), .ofNat (0xdc00 + (code - 0x10000) % 0x400)]

/-- The UTF-16 code units of a text: its value as a string of ECMAScript. -/
def Text.units (t : Text) : List UInt16 := t.flatMap fun c => utf16 c.toNat

theorem Char.toNat_scalar (c : Char) : c.toNat < 0xd800 ∨ 0xdfff < c.toNat ∧ c.toNat < 0x110000 := c.valid

theorem utf16_append_inj {c d : Char} {u v : List UInt16} (h : utf16 c.toNat ++ u = utf16 d.toNat ++ v) :
    c = d ∧ u = v := by
  have hc := Char.toNat_scalar c
  have hd := Char.toNat_scalar d
  have hunit {m n : Nat} (hm : m < 0x10000) (hn : n < 0x10000) (h : UInt16.ofNat m = UInt16.ofNat n) : m = n := by
    have := congrArg UInt16.toNat h
    simp only [UInt16.toNat_ofNat'] at this
    omega
  suffices c.toNat = d.toNat ∧ u = v from ⟨Char.toNat_inj.1 this.1, this.2⟩
  unfold utf16 at h
  split at h
  · split at h
    · obtain ⟨hfirst, hrest⟩ := List.cons.inj h
      exact ⟨hunit (by omega) (by omega) hfirst, hrest⟩
    · have := hunit (by omega) (by omega) (List.cons.inj h).1
      omega
  · split at h
    · have := hunit (by omega) (by omega) (List.cons.inj h).1
      omega
    · obtain ⟨hfirst, hrest⟩ := List.cons.inj h
      obtain ⟨hsecond, hrest⟩ := List.cons.inj hrest
      have := hunit (by omega) (by omega) hfirst
      have := hunit (by omega) (by omega) hsecond
      exact ⟨by omega, hrest⟩

/-- No two texts have the same value. -/
theorem Text.units_injective : Function.Injective Text.units := by
  intro s t h
  induction s generalizing t with
  | nil =>
    cases t with
    | nil => rfl
    | cons d t =>
      exfalso
      simp only [units, List.flatMap_nil, List.flatMap_cons, utf16] at h
      split at h <;> cases h
  | cons c s ih =>
    cases t with
    | nil =>
      exfalso
      simp only [units, List.flatMap_nil, List.flatMap_cons, utf16] at h
      split at h <;> cases h
    | cons d t =>
      obtain ⟨rfl, hrest⟩ := utf16_append_inj h
      rw [ih hrest]

namespace EsModule

/-! ## Escapes -/

/-- The character ends a line of a module. -/
def isLineTerminator (c : Char) : Bool := c == '\n' || c == '\r' || c == '\u2028' || c == '\u2029'

/-- The number that hexadecimal digits spell, if they are all such and there is one. -/
def hexNumber? (digits : Text) : Option Nat :=
  if digits.isEmpty then none else digits.foldlM (fun n d => (Graphql.digitValue? d).map (n * 16 + ·)) 0

/-- The number of exactly `count` hexadecimal digits. -/
def hexDigits? (count : Nat) (t : Text) : Option Nat :=
  if count ≤ t.length then hexNumber? (t.take count) else none

/-- The character that a backslash and this one stand for. -/
def singleEscape (c : Char) : Char :=
  if c = 'b' then '\x08'
  else if c = 't' then '\t'
  else if c = 'n' then '\n'
  else if c = 'v' then '\x0b'
  else if c = 'f' then '\x0c'
  else if c = 'r' then '\r'
  else c

/-- What the characters behind a backslash stand for, and how many of them belong to the escape. In strict code a
digit is none but a zero that no digit follows. A line terminator stands for nothing. -/
def escape? : Text → Option (List UInt16 × Nat)
  | [] => none
  | c :: t =>
    if c = 'x' then (hexDigits? 2 t).map fun code => (utf16 code, 3)
    else if c = 'u' then
      if t.head? = some '{' then
        let digits := (t.drop 1).takeWhile (· != '}')
        if digits.length + 1 < t.length then
          ((hexNumber? digits).filter (· ≤ 0x10ffff)).map fun code => (utf16 code, digits.length + 3)
        else none
      else (hexDigits? 4 t).map fun code => (utf16 code, 5)
    else if c.isDigit then
      if c = '0' ∧ ¬t.head?.any Char.isDigit then some (utf16 0, 1) else none
    else if c = '\r' ∧ t.head? = some '\n' then some ([], 2)
    else if isLineTerminator c then some ([], 1)
    else some (utf16 (singleEscape c).toNat, 1)

/-! ## Literals -/

/-- The code units up to the closing quotation mark, and what follows it; the first `skip` characters belong to an
escape that is read already. -/
def bodyFrom (quote : Char) (skip : Nat) : Text → Option (List UInt16 × Text)
  | [] => none
  | c :: t =>
    match skip with
    | n + 1 => bodyFrom quote n t
    | 0 =>
      if c = quote then some ([], t)
      else if c = '\n' ∨ c = '\r' then none
      else if c = '\\' then
        match escape? t with
        | none => none
        | some (units, count) => (bodyFrom quote count t).map fun body => (units ++ body.1, body.2)
      else (bodyFrom quote 0 t).map fun body => (utf16 c.toNat ++ body.1, body.2)

/-- The string literal that the text begins with: its value, and what follows it. -/
def stringLiteral? : Text → Option (List UInt16 × Text)
  | [] => none
  | c :: t => if c = '"' ∨ c = '\x27' then bodyFrom c 0 t else none

/-- Both quotation marks and all kinds of escapes are read, and a literal on two lines. -/
example : stringLiteral? "\x27\\x41\\u0042\\u\x7b43\x7d\\\n\\0\x27;" = some ([0x41, 0x42, 0x43, 0], [';']) := by decide

/-- A line feed that no backslash precedes ends no literal, and octal escapes are none. -/
example : stringLiteral? "\"a\nb\"" = none ∧ stringLiteral? "\"\\01\"" = none := by decide

/-! ## Reading back -/

theorem digitValue?_hexDigit : ∀ n < 16, Graphql.digitValue? (Json.hexDigit n) = some n := by decide

/-- Behind the zeros of an escape two digits spell a number below 256. -/
theorem hexDigits?_of_lt {n : Nat} (h : n < 256) (t : Text) :
    hexDigits? 4 ('0' :: '0' :: Json.hexDigit (n / 16) :: Json.hexDigit (n % 16) :: t) = some n := by
  have hzero : Graphql.digitValue? '0' = some 0 := rfl
  have hhigh := digitValue?_hexDigit (n / 16) (by omega)
  have hlow := digitValue?_hexDigit (n % 16) (by omega)
  simp only [hexDigits?, hexNumber?, List.length_cons, List.take_succ_cons, List.take_zero, List.foldlM_cons,
    List.foldlM_nil, hzero, hhigh, hlow]
  simp
  omega

theorem bodyFrom_skip (quote : Char) (e t : Text) : bodyFrom quote e.length (e ++ t) = bodyFrom quote 0 t := by
  induction e with
  | nil => rfl
  | cons c e ih => rw [List.length_cons, List.cons_append, bodyFrom, ih]

theorem bodyFrom_escape {e t : Text} {units : List UInt16} (h : escape? (e ++ t) = some (units, e.length)) :
    bodyFrom '"' 0 ('\\' :: (e ++ t)) = (bodyFrom '"' 0 t).map fun body => (units ++ body.1, body.2) := by
  rw [bodyFrom, if_neg (by decide), if_neg (by decide), if_pos rfl]
  simp only [h, bodyFrom_skip]

/-- Each character is read back from its written form, wherever it stands. -/
theorem bodyFrom_escapeChar (c : Char) (t : Text) : bodyFrom '"' 0 (Json.escapeChar c ++ t) =
    (bodyFrom '"' 0 t).map fun body => (utf16 c.toNat ++ body.1, body.2) := by
  unfold Json.escapeChar
  split_ifs with hquote hbackslash hb ht hn hf hr hcontrol
  · subst hquote
    exact bodyFrom_escape (e := ['"']) rfl
  · subst hbackslash
    exact bodyFrom_escape (e := ['\\']) rfl
  · subst hb
    exact bodyFrom_escape (e := ['b']) rfl
  · subst ht
    exact bodyFrom_escape (e := ['t']) rfl
  · subst hn
    exact bodyFrom_escape (e := ['n']) rfl
  · subst hf
    exact bodyFrom_escape (e := ['f']) rfl
  · subst hr
    exact bodyFrom_escape (e := ['r']) rfl
  · refine bodyFrom_escape (e := ['u', '0', '0', Json.hexDigit (c.toNat / 16), Json.hexDigit (c.toNat % 16)]) ?_
    have hdigits := hexDigits?_of_lt (n := c.toNat) (by omega) t
    simp [escape?, hdigits]
  · have hline : ¬(c = '\n' ∨ c = '\r') := fun h => h.elim hn hr
    rw [List.singleton_append, bodyFrom, if_neg hquote, if_neg hline, if_neg hbackslash]

/-- A quoted text is read back, whatever follows. -/
theorem stringLiteral?_quoted (t rest : Text) : stringLiteral? (Json.quoted t ++ rest) = some (t.units, rest) := by
  have hbody : bodyFrom '"' 0 (t.flatMap Json.escapeChar ++ '"' :: rest) = some (t.units, rest) := by
    induction t with
    | nil => rfl
    | cons c t ih =>
      rw [List.flatMap_cons, List.append_assoc, bodyFrom_escapeChar, ih]
      rfl
  have hquoted : Json.quoted t ++ rest = '"' :: (t.flatMap Json.escapeChar ++ '"' :: rest) := by simp [Json.quoted]
  rw [hquoted, stringLiteral?, if_pos (.inl rfl), hbody]

end EsModule

end GraphqlBuild
