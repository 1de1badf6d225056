/-!
# Binary64 values

A value is a mantissa times a power of two. `nearest` rounds a quotient to the format, ties to even, and
products and quotients of values are rounded exact ones. `ofParts?` gives a significand and a power of ten
their value in several such steps, so it can be off by a few units in the last place. All arithmetic is on
natural numbers.

These are the numbers that `parse_json` makes of the digits it meets.
-/

namespace GraphqlBuild

/-- The value `mantissa · 2^exponent`, mantissa below `2^53`. -/
structure Binary64 where
  mantissa : Nat
  exponent : Int
deriving DecidableEq, Repr

namespace Binary64

/-- The least mantissa that is too great, `2^53`. -/
def carry : Nat := Nat.pow 2 53

/-- The least mantissa with all its bits in use, `2^52`. -/
def half : Nat := Nat.pow 2 52

/-- The least exponent of the format. -/
def leastExponent : Int := -1074

/-- The greatest exponent of a finite value. -/
def greatestExponent : Int := 971

/-- Zero. -/
def zero : Binary64 := ⟨0, leastExponent⟩

/-- The value is one of the format's, not one beyond its greatest. -/
def isFinite (v : Binary64) : Bool := v.exponent ≤ greatestExponent

/-! ## Rounding -/

/-- The quotient, rounded to nearest, a tie to the even neighbour. -/
def roundDiv (num den : Nat) : Nat :=
  let q := num / den
  let twice := 2 * (num % den)
  if twice < den then q
  else if twice = den then q + q % 2
  else q + 1

/-- `num / den` in units of `2^q`, rounded. -/
def scaled (num den : Nat) (q : Int) : Nat :=
  if 0 ≤ q then roundDiv num (den * Nat.pow 2 q.toNat) else roundDiv (num * Nat.pow 2 (-q).toNat) den

/-- The value of `num / den`, starting from a guess of its exponent that is at most one off. -/
def ofGuess (num den : Nat) (q : Int) : Binary64 :=
  let m := scaled num den q
  if carry ≤ m then ⟨scaled num den (q + 1), q + 1⟩
  else if m < half ∧ leastExponent < q then
    let finer := scaled num den (q - 1)
    if carry ≤ finer then ⟨m, q⟩ else ⟨finer, q - 1⟩
  else ⟨m, q⟩

/-- The value nearest to `num / den`. -/
def nearest (num den : Nat) : Binary64 :=
  if num = 0 then zero
  else
    let guess : Int := (num.log2 : Int) - den.log2 - 52
    ofGuess num den (max guess leastExponent)

/-! ## Arithmetic -/

/-- The quotient `m · 2^q`. -/
def quotOf (m : Nat) (q : Int) : Nat × Nat :=
  if 0 ≤ q then (m * Nat.pow 2 q.toNat, 1) else (m, Nat.pow 2 (-q).toNat)

/-- The value as a quotient. -/
def toQuot (v : Binary64) : Nat × Nat := quotOf v.mantissa v.exponent

/-- The product, rounded. -/
def mul (v w : Binary64) : Binary64 :=
  nearest (v.toQuot.1 * w.toQuot.1) (v.toQuot.2 * w.toQuot.2)

/-- The quotient, rounded. -/
def div (v w : Binary64) : Binary64 :=
  nearest (v.toQuot.1 * w.toQuot.2) (v.toQuot.2 * w.toQuot.1)

/-- The greatest power of ten that is finite, `10^308`. -/
def greatestPower : Nat := 308

/-- The value nearest to `10^n`. -/
def tenTo (n : Nat) : Binary64 := nearest (Nat.pow 10 n) 1

/-- The value over `10^n`, divided by at most `10^308` at a time. -/
def divTenTo (v : Binary64) (n : Nat) : Binary64 :=
  if n ≤ greatestPower then v.div (tenTo n)
  else if v.mantissa = 0 then v
  else divTenTo (v.div (tenTo greatestPower)) (n - greatestPower)
termination_by n
decreasing_by simp only [greatestPower] at *; omega

/-- The value of `significand · 10^power`: the significand is rounded, then multiplied by the rounded power
of ten or divided by it. `none` if that exceeds the format. -/
def ofParts? (significand : Nat) (power : Int) : Option Binary64 :=
  let v := nearest significand 1
  if power < 0 then some (v.divTenTo (-power).toNat)
  else if v.mantissa = 0 then some v
  else if greatestPower < power then none
  else
    let product := v.mul (tenTo power.toNat)
    if product.isFinite then some product else none

end Binary64

end GraphqlBuild
