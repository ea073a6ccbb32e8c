import Stepwise.Value.Basic

/-!
# The depth of values

How deep the lists and mappings of a value stand in each other, which what copies or shows a value
may limit.
-/

namespace Stepwise.Value

mutual

/-- How many lists and mappings stand in each other; scalars, sets and members of enumerations count
for none. -/
def depth : Value → Nat
  | list xs | tuple xs => depthOfAll xs + 1
  | dict entries => depthOfEntries entries + 1
  | scalar _ | set _ | completion _ | member _ _ | again _ => 0

/-- The largest depth of values. -/
def depthOfAll : List Value → Nat
  | [] => 0
  | x :: xs => max (depth x) (depthOfAll xs)

/-- The largest depth of the values of some entries. -/
def depthOfEntries : List (Scalar × Value) → Nat
  | [] => 0
  | (_, v) :: es => max (depth v) (depthOfEntries es)

end

end Stepwise.Value
