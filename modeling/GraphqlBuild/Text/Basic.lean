/-!
# Texts and byte offsets

A text is its list of characters; an offset into it counts the bytes of its UTF-8 form, so only some
offsets fall between two characters. `Text.splitAt?` cuts at an offset and refuses the others;
`Text.slice?` is built on it. Main statements: a cut loses nothing (`splitAt?_append`) and its first
part has the asked size (`size_of_splitAt?`).

| here | in the program |
| --- | --- |
| `splitAt?`, `slice?` | `OffsetRange::slice`, and the tests of the offsets in `apply_edits` |
| `eqIgnoringCase` | the comparison of extensions in `SourceMode::route` |
-/

namespace GraphqlBuild

/-- A text, character by character. -/
abbrev Text := List Char

/-- A literal may stand where a text is expected. -/
instance : Coe String Text := ⟨String.toList⟩

namespace Text

/-- The number of bytes of the UTF-8 form. -/
def size : Text → Nat
  | [] => 0
  | c :: t => c.utf8Size + size t

@[simp] theorem size_append (s t : Text) : size (s ++ t) = size s + size t := by
  induction s with
  | nil => simp [size]
  | cons c s ih => simp [size, ih, Nat.add_assoc]

/-- The text before and after byte `n`, if `n` falls between two characters. -/
def splitAt? : Nat → Text → Option (Text × Text)
  | 0, t => some ([], t)
  | _ + 1, [] => none
  | n + 1, c :: t =>
    if c.utf8Size ≤ n + 1 then
      (splitAt? (n + 1 - c.utf8Size) t).map fun parts => (c :: parts.1, parts.2)
    else none

theorem splitAt?_append (s t : Text) : splitAt? (size s) (s ++ t) = some (s, t) := by
  induction s with
  | nil => simp [size, splitAt?]
  | cons c s ih =>
    have hc : 0 < c.utf8Size := Char.utf8Size_pos c
    obtain ⟨n, hn⟩ : ∃ n, size (c :: s) = n + 1 := ⟨size (c :: s) - 1, by simp only [size]; omega⟩
    have hs : n + 1 - c.utf8Size = size s := by simp only [size] at hn; omega
    have hle : c.utf8Size ≤ n + 1 := by simp only [size] at hn; omega
    rw [hn, List.cons_append, splitAt?, if_pos hle, hs, ih]
    rfl

theorem size_of_splitAt? {n : Nat} {t a b : Text} (h : splitAt? n t = some (a, b)) :
    size a = n ∧ t = a ++ b := by
  induction t generalizing n a b with
  | nil =>
    cases n with
    | zero => simp only [splitAt?, Option.some.injEq, Prod.mk.injEq] at h; simp [← h.1, ← h.2, size]
    | succ n => simp [splitAt?] at h
  | cons c t ih =>
    cases n with
    | zero => simp only [splitAt?, Option.some.injEq, Prod.mk.injEq] at h; simp [← h.1, ← h.2, size]
    | succ n =>
      rw [splitAt?] at h
      split at h
      · rename_i hc
        obtain ⟨⟨a', b'⟩, hs, heq⟩ := Option.map_eq_some_iff.1 h
        obtain ⟨rfl, rfl⟩ := Prod.mk.injEq .. |>.mp heq
        obtain ⟨hsize, rfl⟩ := ih hs
        refine ⟨?_, rfl⟩
        simp only [size, hsize]
        omega
      · simp at h

/-- Bytes `start` to `stop` of the text, if they are the bytes of whole characters of it. -/
def slice? (t : Text) (start stop : Nat) : Option Text :=
  if start ≤ stop then do
    let (_, rest) ← splitAt? start t
    let (inner, _) ← splitAt? (stop - start) rest
    return inner
  else none

/-- The pieces between the characters that `p` picks out; one more piece than such characters. -/
def splitOn (p : Char → Bool) : Text → List Text
  | [] => [[]]
  | c :: t =>
    if p c then [] :: splitOn p t
    else match splitOn p t with
      | [] => [[c]]
      | piece :: pieces => (c :: piece) :: pieces

/-- The pieces in order, `separator` between each two. -/
def join (separator : Text) (pieces : List Text) : Text := separator.intercalate pieces

/-- What follows `head` in the text, if the text begins with it. -/
def after? : Text → Text → Option Text
  | [], t => some t
  | _ :: _, [] => none
  | c :: head, d :: t => if c = d then after? head t else none

/-- Every occurrence of `old`, found from left to right, becomes `new`. An empty `old` occurs once
before each character and once at the end. -/
def replace (t old new : Text) : Text :=
  go 0 t
where
  go (skip : Nat) : Text → Text
    | [] => if old = [] then new else []
    | c :: t =>
      match skip with
      | skip + 1 => go skip t
      | 0 =>
        if old = [] then new ++ c :: go 0 t
        else if (after? old (c :: t)).isSome then new ++ go (old.length - 1) t
        else c :: go 0 t

/-- Two texts that differ at most in the case of ASCII letters. -/
def eqIgnoringCase (s t : Text) : Bool := s.map Char.toLower == t.map Char.toLower

/-- A number in decimal notation. -/
def ofNat (n : Nat) : Text := Nat.toDigits 10 n

end Text

end GraphqlBuild
