/-!
# Ordering by needs

Arranges a list so that everything stands behind what it needs. Each round takes the first element
that waits for no other element left, so elements that do not depend on each other keep their
order. An element never waits for itself, nor for another occurrence of itself. If in some round
every element waits, the elements left are the answer.
-/

namespace Stepwise.Order

variable {α : Type} [DecidableEq α] (needs : α → α → Bool)

/-- Whether an element waits for another one of a list. -/
def waits (xs : List α) (a : α) : Bool := xs.any fun b => b ≠ a && needs a b

/-- The first element of a list that waits for no other one of it. -/
def firstReady? (xs : List α) : Option α := xs.find? fun a => !waits needs xs a

theorem mem_of_firstReady? {xs : List α} {a : α} (h : firstReady? needs xs = some a) : a ∈ xs :=
  List.mem_of_find?_eq_some h

/-- Arranges a list, or gives the elements that are left when all of them wait. -/
def arrange (xs : List α) : Except (List α) (List α) :=
  match h : firstReady? needs xs with
  | some a =>
    have : (xs.erase a).length < xs.length := by
      have hm := mem_of_firstReady? needs h
      have := List.length_pos_of_mem hm
      rw [List.length_erase_of_mem hm]; omega
    (arrange (xs.erase a)).map (a :: ·)
  | none => if xs.isEmpty then .ok [] else .error xs
termination_by xs.length

end Stepwise.Order
