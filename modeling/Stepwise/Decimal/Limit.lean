/-!
# The limit on digits

Whole numbers are read and written in base ten only up to a number of digits. This file has the
limit and what messages say about numbers beyond it.
-/

namespace Stepwise.Decimal

/-- The largest number of digits of a whole number. -/
def maxDigits : Nat := 4300

/-- Whether a whole number has more digits than may be written. -/
def isTooLong (i : Int) : Bool := Nat.pow 10 maxDigits ≤ i.natAbs

/-- The name of the limit in messages. -/
def limitName : String := "Exceeds the limit (" ++ toString maxDigits ++
  " digits) for integer string conversion"

/-- How to raise the limit. -/
def limitHint : String := "use sys.set_int_max_str_digits() to increase the limit"

/-- The message about a numeral that is too long to be read. -/
def tooLongToRead (digits : Nat) : String :=
  limitName ++ ": value has " ++ toString digits ++ " digits; " ++ limitHint

/-- The message about a number that is too long to be written. -/
def tooLongToWrite : String := limitName ++ "; " ++ limitHint

end Stepwise.Decimal
