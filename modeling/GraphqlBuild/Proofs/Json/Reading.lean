import GraphqlBuild.Json.Reader
import GraphqlBuild.Proofs.Text.Cut
import Mathlib.Tactic.SplitIfs
/-!
# Reading what is written

A reader reads a written value back if it takes exactly that text from the front, whatever follows (`Reads`). Truth
values, strings over all characters and lists of strings are read back from their compact form
(`reads_boolText`, `reads_quoted`, `reads_texts`).
-/

namespace GraphqlBuild.Json

/-- The reader takes the text from the front and gives the value, whatever follows and wherever the text stands. -/
def Reads {α : Type} (read : Reader α) (written : Text) (a : α) : Prop :=
  ∀ rest offset, ∃ offset', read ⟨written ++ rest, offset⟩ = .ok (a, ⟨rest, offset'⟩)

theorem Reads.map {α β : Type} {read : Reader α} {written : Text} {a : α} (h : Reads read written a) (g : α → β) :
    Reads (fun c => (read c).map fun r => (g r.1, r.2)) written (g a) := by
  intro rest offset
  obtain ⟨offset', ha⟩ := h rest offset
  exact ⟨offset', by simp only [ha, Except.map]⟩

/-! ## No blanks -/

section Front
variable {d : Char} (hd : Cursor.isSpace d = false) (t : Text) (offset : Nat)
include hd

theorem Cursor.skip_cons : Cursor.skip ⟨d :: t, offset⟩ = ⟨d :: t, offset⟩ := by
  simp [Cursor.skip, hd]

theorem atValue_cons {α : Type} (read : Char → Cursor → Except Fault α) :
    atValue ⟨d :: t, offset⟩ read = read d ⟨d :: t, offset⟩ := by
  rw [atValue, Cursor.skip_cons hd]

end Front

/-! ## Strings -/

theorem hexValue?_hexDigit : ∀ n < 16, hexValue? (hexDigit n) = some n := by decide

theorem hexValue4?_of_lt {n : Nat} (h : n < 256) :
    hexValue4? '0' '0' (hexDigit (n / 16)) (hexDigit (n % 16)) = some n := by
  have hzero : hexValue? '0' = some 0 := rfl
  have hhigh := hexValue?_hexDigit (n / 16) (by omega)
  have hlow := hexValue?_hexDigit (n % 16) (by omega)
  simp only [hexValue4?, hzero, hhigh, hlow, bind, Option.bind, pure, Option.some.injEq]
  omega

/-- A character that needs no escape stands for itself. -/
theorem readChars_cons {c : Char} (hquote : c ≠ '"') (hbackslash : c ≠ '\\') (hcontrol : ¬c.toNat < 0x20) (t : Text)
    (offset : Nat) : readChars offset (c :: t) =
      (readChars (offset + c.utf8Size) t).map fun r => (c :: r.1, r.2) := by
  rw [readChars.eq_def]
  split
  · simp_all
  · simp_all
  · simp_all
  · simp_all
  · simp_all
  · rename_i heq
    obtain ⟨rfl, rfl⟩ := List.cons.inj heq
    rw [if_neg hcontrol]

/-- Each character is read back from its written form. -/
theorem readChars_escapeChar (c : Char) (t : Text) (offset : Nat) :
    ∃ offset', readChars offset (escapeChar c ++ t) = (readChars offset' t).map fun r => (c :: r.1, r.2) := by
  unfold escapeChar
  split_ifs with hquote hbackslash hb ht hn hf hr hcontrol
  · subst hquote
    exact ⟨_, rfl⟩
  · subst hbackslash
    exact ⟨_, rfl⟩
  · subst hb
    exact ⟨_, rfl⟩
  · subst ht
    exact ⟨_, rfl⟩
  · subst hn
    exact ⟨_, rfl⟩
  · subst hf
    exact ⟨_, rfl⟩
  · subst hr
    exact ⟨_, rfl⟩
  · have hhex := hexValue4?_of_lt (n := c.toNat) (by omega)
    have hlow : isLowSurrogate c.toNat = false := by
      simp only [isLowSurrogate, Bool.and_eq_false_iff, decide_eq_false_iff_not]
      omega
    have hhigh : isHighSurrogate c.toNat = false := by
      simp only [isHighSurrogate, Bool.and_eq_false_iff, decide_eq_false_iff_not]
      omega
    refine ⟨offset + 6, ?_⟩
    simp [readChars, hhex, hlow, hhigh]
  · exact ⟨_, readChars_cons hquote hbackslash hcontrol t offset⟩

theorem reads_chars (t : Text) : Reads readString (t.flatMap escapeChar ++ ['"']) t := by
  induction t with
  | nil => exact fun rest offset => ⟨offset + 1, rfl⟩
  | cons c t ih =>
    intro rest offset
    obtain ⟨offset', hc⟩ := readChars_escapeChar c (t.flatMap escapeChar ++ ['"'] ++ rest) offset
    obtain ⟨offset'', ht⟩ := ih rest offset'
    refine ⟨offset'', ?_⟩
    rw [readString] at ht ⊢
    simp only [List.flatMap_cons, List.append_assoc] at hc ht ⊢
    rw [hc, ht]
    rfl

theorem quoted_append (t rest : Text) : quoted t ++ rest = '"' :: (t.flatMap escapeChar ++ ['"'] ++ rest) := by
  simp [quoted]

theorem reads_quoted (t : Text) : Reads readText (quoted t) t := by
  intro rest offset
  obtain ⟨offset', ht⟩ := reads_chars t rest (Cursor.next ⟨quoted t ++ rest, offset⟩).offset
  refine ⟨offset', ?_⟩
  rw [readText, quoted_append, atValue_cons (by decide), if_pos rfl]
  exact ht

/-! ## Words -/

theorem reads_boolText (b : Bool) : Reads readBool (JsonValue.boolText b) b := by
  cases b with
  | true => exact fun rest offset => ⟨_, rfl⟩
  | false => exact fun rest offset => ⟨_, rfl⟩

/-- A value that does not begin as `null` does is read as it would be by itself. -/
theorem Reads.optional {α : Type} {read : Reader α} {d : Char} {t : Text} {a : α} (h : Reads read (d :: t) a)
    (hd : Cursor.isSpace d = false) (hn : d ≠ 'n') : Reads (readOptional read) (d :: t) (some a) := by
  intro rest offset
  obtain ⟨offset', ha⟩ := h rest offset
  refine ⟨offset', ?_⟩
  rw [List.cons_append] at ha ⊢
  unfold readOptional
  rw [Cursor.skip_cons hd]
  split
  · rename_i heq
    exact absurd (List.cons.inj heq).1 hn
  · rw [ha]
    rfl

/-! ## Lists and objects -/

/-- What stands in front of an element or a member: a comma, if it is not the first. -/
def comma (first : Bool) : Text := if first then [] else [',']

theorem moreElements_comma {d : Char} (hd : Cursor.isSpace d = false) (hclose : d ≠ ']') (first : Bool) (t : Text)
    (offset : Nat) :
    ∃ offset', moreElements first ⟨comma first ++ d :: t, offset⟩ = .ok (true, ⟨d :: t, offset'⟩) := by
  cases first with
  | true =>
    refine ⟨offset, ?_⟩
    simp [moreElements, comma, Cursor.skip_cons hd, hclose]
  | false =>
    refine ⟨offset + 1, ?_⟩
    have hcomma : Cursor.skip ⟨',' :: d :: t, offset⟩ = ⟨',' :: d :: t, offset⟩ := Cursor.skip_cons rfl _ _
    have hnext : Cursor.next ⟨',' :: d :: t, offset⟩ = ⟨d :: t, offset + 1⟩ := rfl
    simp only [moreElements, comma, Bool.false_eq_true, if_false, List.singleton_append, hcomma, hnext,
      Cursor.skip_cons hd]
    split
    · simp_all
    · split <;> simp_all

theorem moreMembers_comma (first : Bool) (t : Text) (offset : Nat) :
    ∃ offset', moreMembers first ⟨comma first ++ '"' :: t, offset⟩ = .ok (true, ⟨'"' :: t, offset'⟩) := by
  cases first with
  | true => exact ⟨_, rfl⟩
  | false => exact ⟨_, rfl⟩

theorem reads_colon : Reads readColon [':'] () := fun _ _ => ⟨_, rfl⟩

theorem length_le_length_compactElements (first : Bool) (ts : List Text) :
    ts.length ≤ (JsonValue.compactElements first (ts.map .string)).length := by
  induction ts generalizing first with
  | nil => simp
  | cons t ts ih =>
    have hrest := ih false
    simp only [List.map_cons, JsonValue.compactElements, JsonValue.compact, List.length_append, List.length_cons,
      quoted]
    omega

theorem readElements_texts (ts : List Text) (n : Nat) (hn : ts.length < n) (first : Bool) (rest : Text)
    (offset : Nat) : ∃ offset', readElements readText n first
      ⟨JsonValue.compactElements first (ts.map .string) ++ ']' :: rest, offset⟩ =
        .ok (ts, ⟨']' :: rest, offset'⟩) := by
  induction ts generalizing n first offset with
  | nil =>
    obtain ⟨n, rfl⟩ := Nat.exists_eq_succ_of_ne_zero (Nat.pos_iff_ne_zero.1 hn)
    exact ⟨offset, rfl⟩
  | cons t ts ih =>
    obtain ⟨n, rfl⟩ := Nat.exists_eq_succ_of_ne_zero (by omega : n ≠ 0)
    obtain ⟨others, hothers⟩ : ∃ others, others = JsonValue.compactElements false (ts.map .string) ++ ']' :: rest :=
      ⟨_, rfl⟩
    have htext : JsonValue.compactElements first ((t :: ts).map .string) ++ ']' :: rest =
        comma first ++ '"' :: (t.flatMap escapeChar ++ ['"'] ++ others) := by
      simp [JsonValue.compactElements, JsonValue.compact, comma, quoted, hothers]
    obtain ⟨o₁, hmore⟩ := moreElements_comma (d := '"') rfl (by decide) first
      (t.flatMap escapeChar ++ ['"'] ++ others) offset
    obtain ⟨o₂, ht⟩ := reads_quoted t others o₁
    obtain ⟨o₃, hts⟩ := ih n (by simpa using hn) false o₂
    refine ⟨o₃, ?_⟩
    rw [quoted_append] at ht
    simp only [htext, readElements, hmore, bind, Except.bind, if_true, ht]
    rw [hothers, hts]
    rfl

/-- A list of strings is read back. -/
theorem reads_texts (ts : List Text) : Reads readTexts (JsonValue.compact (.array (ts.map .string))) ts := by
  intro rest offset
  have hlength := length_le_length_compactElements true ts
  obtain ⟨o₁, hts⟩ := readElements_texts ts
    ((JsonValue.compactElements true (ts.map .string) ++ ']' :: rest).length + 1)
    (by simp only [List.length_append]; omega) true rest (offset + 1)
  refine ⟨o₁ + 1, ?_⟩
  have htext : JsonValue.compact (.array (ts.map .string)) ++ rest =
      '[' :: (JsonValue.compactElements true (ts.map .string) ++ ']' :: rest) := by
    simp [JsonValue.compact]
  have hnext (t : Text) : Cursor.next ⟨'[' :: t, offset⟩ = ⟨t, offset + 1⟩ := rfl
  rw [readTexts, htext, atValue_cons rfl, if_pos rfl]
  simp only [hnext, hts, bind, Except.bind]
  rfl

end GraphqlBuild.Json
