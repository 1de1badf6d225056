import GraphqlBuild.Decimal.Binary64
import GraphqlBuild.Text.Basic
/-!
# Shortest decimal numbers

`Binary64.shortest` writes a value with the fewest digits that round back to it, the nearest ones of that
many; `Decimal.text` is how messages write the number. All arithmetic is on natural numbers.

So the messages of `parse_json` write a number that stands where none is wanted.
-/

namespace GraphqlBuild

namespace Binary64

/-- A decimal number `digits · 10^power`. -/
structure Decimal where
  digits : Nat
  power : Int
deriving DecidableEq, Repr

/-- `(a, b)` stands for the quotient `a / b`; compares two such. -/
def quotLe (x y : Nat × Nat) : Bool := x.1 * y.2 ≤ y.1 * x.2

/-- The two halfway points around a value, as quotients. -/
def bounds (v : Binary64) : (Nat × Nat) × (Nat × Nat) :=
  let low :=
    if v.mantissa = half ∧ leastExponent < v.exponent then
      quotOf (4 * v.mantissa - 1) (v.exponent - 2)
    else quotOf (2 * v.mantissa - 1) (v.exponent - 1)
  (low, quotOf (2 * v.mantissa + 1) (v.exponent - 1))

/-- The decimal number rounds to the value; the halfway points do so for an even mantissa only. -/
def readsBack (v : Binary64) (d : Decimal) : Bool :=
  let x : Nat × Nat :=
    if 0 ≤ d.power then (d.digits * Nat.pow 10 d.power.toNat, 1) else (d.digits, Nat.pow 10 (-d.power).toNat)
  let (low, high) := bounds v
  if v.mantissa % 2 = 0 then quotLe low x && quotLe x high
  else !quotLe x low && !quotLe high x

/-- The value's neighbour below on the grid of that power, and whether the one above is nearer; of two that are
equally near, the even one counts as nearer. -/
def onGrid (v : Binary64) (power : Int) : Nat × Bool :=
  let x := v.toQuot
  let num := if 0 ≤ power then x.1 else x.1 * Nat.pow 10 (-power).toNat
  let den := if 0 ≤ power then x.2 * Nat.pow 10 power.toNat else x.2
  let below := num / den
  let twice := 2 * (num % den)
  (below, den < twice || den == twice && below % 2 == 1)

/-- The power of ten of the value's first digit, searched downward from `n - 400`. -/
def leadingPower (v : Binary64) : Nat → Int
  | 0 => -400
  | n + 1 =>
    let power : Int := (n : Int) - 400
    if 0 < (onGrid v power).1 then power else leadingPower v n

/-- The first grid from `power` downward, of at most `n`, that holds a number which reads back. -/
def search (v : Binary64) : Nat → Int → Decimal
  | 0, power => ⟨(onGrid v power).1, power⟩
  | n + 1, power =>
    let (below, up) := onGrid v power
    let first : Decimal := ⟨if up then below + 1 else below, power⟩
    let second : Decimal := ⟨if up then below else below + 1, power⟩
    if readsBack v first then first
    else if readsBack v second then second
    else search v n (power - 1)

/-- The decimal number of fewest digits that rounds to the value. -/
def shortest (v : Binary64) : Decimal :=
  if v.mantissa = 0 then ⟨0, 0⟩ else search v 17 (leadingPower v 800)

end Binary64

/-- Zeros. -/
def zeros (n : Nat) : Text := List.replicate n '0'

/-- A decimal number as messages write it: in positional notation when the first digit stands between
the sixteenth place before and the fifth after the point, else with an exponent. -/
def Binary64.Decimal.text (d : Binary64.Decimal) : Text :=
  let all := Nat.toDigits 10 d.digits
  let significant := (all.reverse.dropWhile (· == '0')).reverse
  let digits := if significant.isEmpty then ['0'] else significant
  let power : Int := if significant.isEmpty then 0 else d.power + (all.length - significant.length : Nat)
  let point : Int := power + digits.length
  if 0 ≤ power ∧ point ≤ 16 then digits ++ zeros power.toNat ++ ['.', '0']
  else if 0 < point ∧ point ≤ 16 then digits.take point.toNat ++ '.' :: digits.drop point.toNat
  else if -5 < point ∧ point ≤ 0 then '0' :: '.' :: zeros (-point).toNat ++ digits
  else
    let exponent := point - 1
    let sign := if 0 ≤ exponent then '+' else '-'
    let fraction := if digits.length = 1 then [] else '.' :: digits.drop 1
    digits.take 1 ++ fraction ++ 'e' :: sign :: Text.ofNat exponent.natAbs

end GraphqlBuild
