/-!
# Binary floating-point numbers as exact numbers

A finite number of double width is `mantissa * 2 ^ exponent` up to its sign. This file takes the
mantissa and the exponent out of the bits, and gives the exact rational value and the interval of
the rationals that round to it.
-/

namespace Stepwise.Decimal

/-- The size of a finite number of double width: the exact value is `mantissa * 2 ^ exponent`. -/
structure Magnitude where
  mantissa : Nat
  exponent : Int
  deriving DecidableEq, Repr

/-- What the bits of a number of double width stand for. -/
inductive Decoded where
  | nan
  | infinite (negative : Bool)
  | finite (negative : Bool) (size : Magnitude)
  deriving DecidableEq, Repr

/-- The leading one of a mantissa, which the bits leave out. -/
def hiddenOne : Nat := 0x10000000000000

/-- Reads sign, exponent and fraction out of the bits. A zero exponent field drops the leading one
of the mantissa, a full one marks the infinities and the numbers that are none. -/
def decode (x : Float) : Decoded :=
  let bits := x.toBits.toNat
  let negative := bits / 0x8000000000000000 == 1
  let field : Nat := bits / hiddenOne % 0x800
  let fraction : Nat := bits % hiddenOne
  if field = 2047 then if fraction = 0 then .infinite negative else .nan
  else if field = 0 then .finite negative ⟨fraction, -1074⟩
  else .finite negative ⟨hiddenOne + fraction, (field : Int) - 1075⟩

namespace Magnitude

/-- Two to an integer power, as a rational. -/
def pow2 (e : Int) : Rat := (2 : Rat) ^ e

/-- The exact value. -/
def value (m : Magnitude) : Rat := m.mantissa * pow2 m.exponent

/-- The midpoint between the number and the next larger one. -/
def upper (m : Magnitude) : Rat := (2 * m.mantissa + 1 : Nat) * pow2 (m.exponent - 1)

/-- The midpoint between the number and the next smaller one, which is half as far away below a
power of two. -/
def lower (m : Magnitude) : Rat :=
  if m.mantissa = hiddenOne ∧ m.exponent ≠ -1074 then
    (4 * m.mantissa - 1 : Nat) * pow2 (m.exponent - 2)
  else (2 * m.mantissa - 1 : Nat) * pow2 (m.exponent - 1)

/-- Whether a rational rounds to the number: the midpoints do so exactly for an even mantissa. -/
def Rounds (m : Magnitude) (r : Rat) : Prop :=
  (m.lower < r ∧ r < m.upper) ∨ (m.mantissa % 2 = 0 ∧ (r = m.lower ∨ r = m.upper))

instance (m : Magnitude) (r : Rat) : Decidable (m.Rounds r) := inferInstanceAs (Decidable (_ ∨ _))

end Magnitude

end Stepwise.Decimal
