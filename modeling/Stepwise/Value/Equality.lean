import Stepwise.Value.Basic

/-!
# Equality of values

Scalars are equal when their keys are, collections when their parts are, and mappings when they have
the same keys with equal values, in whatever order.
-/

namespace Stepwise.Value

mutual

/-- Whether two values are equal. -/
def same : Value → Value → Bool
  | scalar s, scalar t => s == t
  | text t, completion c => t == c.spelling
  | completion c, text t => t == c.spelling
  | list xs, list ys => sameAll xs ys
  | tuple xs, tuple ys => sameAll xs ys
  | set xs, set ys => xs.length == ys.length && sameSome xs ys
  | dict es, dict fs => es.length == fs.length && sameEntries es fs
  | completion c, completion d => c == d
  | member e v, member f w => e == f && same v w
  | again b, again c => b == c
  | _, _ => false

/-- Whether two rows of values are equal place by place. -/
def sameAll : List Value → List Value → Bool
  | [], [] => true
  | x :: xs, y :: ys => same x y && sameAll xs ys
  | _, _ => false

/-- Whether every value of the first row has an equal one in the second. -/
def sameSome : List Value → List Value → Bool
  | [], _ => true
  | x :: xs, ys => ys.any (same x) && sameSome xs ys

/-- Whether every entry of the first mapping has an equal one in the second. -/
def sameEntries : List (Scalar × Value) → List (Scalar × Value) → Bool
  | [], _ => true
  | (k, v) :: es, fs => (Entries.get? k fs).any (same v) && sameEntries es fs

end

end Stepwise.Value
