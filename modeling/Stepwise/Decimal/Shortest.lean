import Stepwise.Decimal.Binary

/-!
# The shortest decimal that reads back

Of the decimals that round to a number of double width, the one with the fewest digits; of those
with equally many the one nearest to the number, and of two as near the one with an even last
digit. For a count of digits only the two neighbours of the number on the grid of that many digits
need a test.
-/

namespace Stepwise.Decimal

/-- The decimal `digits * 10 ^ exponent`. -/
structure Numeral where
  digits : Nat
  exponent : Int
  deriving DecidableEq, Repr

namespace Numeral

/-- The exact value. -/
def value (n : Numeral) : Rat := n.digits * (10 : Rat) ^ n.exponent

/-- Cuts the trailing zeros of the digits off, at most `fuel` of them. -/
def trimmed : Nat → Numeral → Numeral
  | 0, n => n
  | fuel + 1, n =>
    if n.digits ≠ 0 ∧ n.digits % 10 = 0 then trimmed fuel ⟨n.digits / 10, n.exponent + 1⟩ else n

end Numeral

/-- How far a power of ten is from being just above a positive rational: moves `k` up or down until
`10 ^ (k - 1) ≤ r < 10 ^ k`, in at most `fuel` moves. -/
def leadingPower (r : Rat) : Nat → Int → Int
  | 0, k => k
  | fuel + 1, k =>
    if (10 : Rat) ^ k ≤ r then leadingPower r fuel (k + 1)
    else if r < (10 : Rat) ^ (k - 1) then leadingPower r fuel (k - 1)
    else k

/-- A first guess at the power of ten: three tenths of the power of two. -/
def guessPower (m : Magnitude) : Int := (m.exponent + m.mantissa.log2) * 30103 / 100000

/-- Of the two neighbours of the number on the grid of step `10 ^ e`, the one to write, if any
rounds to the number. -/
def onGrid (m : Magnitude) (e : Int) : Option Numeral :=
  let v := m.value
  let step := (10 : Rat) ^ e
  let below := (v / step).floor.toNat
  let low : Numeral := ⟨below, e⟩
  let high : Numeral := ⟨below + 1, e⟩
  let down := v - low.value
  let up := high.value - v
  if m.Rounds low.value then
    if m.Rounds high.value ∧ (up < down ∨ (up = down ∧ below % 2 = 1)) then some high else some low
  else if m.Rounds high.value then some high
  else none

/-- The first hit on the grids of `count`, `count + 1`, … digits, the number being below
`10 ^ power`. -/
def firstHit (m : Magnitude) (power : Int) : Nat → Nat → Option Numeral
  | 0, _ => none
  | fuel + 1, count => onGrid m (power - count) <|> firstHit m power fuel (count + 1)

/-- The shortest decimal that rounds to a number other than zero. Seventeen digits suffice. -/
def shortest (m : Magnitude) : Numeral :=
  ((firstHit m (leadingPower m.value 8 (guessPower m)) 17 1).getD ⟨0, 0⟩).trimmed 400

end Stepwise.Decimal
