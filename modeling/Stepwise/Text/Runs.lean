/-!
# Runs of code points

A class of code points as a table: the lengths of the runs of code points outside and inside the
class, by turns, from the first code point on. Behind the last run no code point is in the class.
-/

namespace Stepwise.Text

/-- Whether the number `n`, counted from the start of these runs, lies in the class; `inside` says
of what sort the first run is. -/
def inRuns (inside : Bool) : List Nat → Nat → Bool
  | [], _ => false
  | r :: rs, n => if n < r then inside else inRuns (!inside) rs (n - r)

/-- Whether a character is in the class with a table. -/
def inTable (runs : List Nat) (c : Char) : Bool := inRuns false runs c.toNat

end Stepwise.Text
