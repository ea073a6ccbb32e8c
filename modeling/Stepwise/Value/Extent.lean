import Stepwise.Value.Basic

/-!
# How much of a value is wanted

A reader of data often looks at the type of a value and at few of its parts. Where data refer to
themselves or to the same parts many times, only what is wanted should be unfolded.
-/

namespace Stepwise

/-- How much of a value is wanted. -/
inductive Extent where
  /-- the value with all its parts, as far as it can be shown -/
  | whole
  /-- the value without its parts, in whose places null values stand -/
  | outline
  /-- of a list so much of the element at each place, and of any other value its outline -/
  | elements (each : Nat → Extent)
  /-- of a mapping the wanted keys and so much of what is under each, and of any other value its
  outline -/
  | members (wanted : Scalar → Bool) (under : Scalar → Extent)

end Stepwise
