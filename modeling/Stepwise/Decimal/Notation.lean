import Stepwise.Decimal.Shortest
import Stepwise.Text.Digits

/-!
# Decimal notation of a number

The shortest digits are written positionally while the power of ten of the first digit is between
`-4` and `15`, with at least one digit behind the point, and with an exponent of at least two digits
and a sign otherwise. The words for the numbers that have no digits differ between the two places
where numbers are written, so they are parameters.
-/

namespace Stepwise.Decimal

open Stepwise.Text

/-- The words for the infinities and for the value that is no number. -/
structure Words where
  infinity : String
  nan : String

/-- Digits with the point behind the first `point` of them, filled up with zeros at either end. -/
def positional (ds : List Char) (point : Int) : List Char :=
  if point ≤ 0 then
    '0' :: '.' :: List.replicate (-point).toNat '0' ++ ds
  else
    let whole := ds.take point.toNat ++ List.replicate (point.toNat - ds.length) '0'
    let rest := ds.drop point.toNat
    whole ++ '.' :: (if rest.isEmpty then ['0'] else rest)

/-- Digits with a point behind the first and the exponent of the first digit. -/
def scientific (ds : List Char) (exponent : Int) : List Char :=
  let e := decimal exponent.natAbs
  ds.take 1 ++ (if ds.length ≤ 1 then [] else '.' :: ds.drop 1) ++
    ['e', if exponent < 0 then '-' else '+'] ++ List.replicate (2 - e.length) '0' ++ e

/-- The notation of a number other than zero without its sign. -/
def unsigned (m : Magnitude) : List Char :=
  let n := shortest m
  let ds := decimal n.digits
  let point := n.exponent + ds.length
  if -4 < point ∧ point ≤ 16 then positional ds point else scientific ds (point - 1)

/-- The notation of a number of double width. -/
def notate (w : Words) (x : Float) : String :=
  match decode x with
  | .nan => w.nan
  | .infinite negative => if negative then "-" ++ w.infinity else w.infinity
  | .finite negative m =>
    let text := if m.mantissa = 0 then "0.0" else String.ofList (unsigned m)
    if negative then "-" ++ text else text

end Stepwise.Decimal
