import Stepwise.Decimal.Shortest
import Stepwise.Text.Digits

/-!
# Reading a decimal

The number of double width nearest to a decimal. Decimals beyond the range become infinity or zero;
the exponent is cut to a range in which the answer can no longer change, so that no huge power is
computed.
-/

namespace Stepwise.Decimal

open Stepwise.Text

/-- The number of double width nearest to a decimal. -/
def nearest (n : Numeral) : Float :=
  let size : Int := (decimal n.digits).length
  if n.digits = 0 then 0
  else if n.exponent + size > 400 then Float.ofScientific 1 false 400
  else if n.exponent + size < -400 then 0
  else if n.exponent < 0 then Float.ofScientific n.digits true n.exponent.natAbs
  else Float.ofScientific n.digits false n.exponent.natAbs

/-- The decimal of the digits before the point, the digits behind it, and an exponent. -/
def numeral (whole fraction : List Char) (exponent : Int) : Numeral :=
  ⟨decimalValue (whole ++ fraction), exponent - fraction.length⟩

end Stepwise.Decimal
