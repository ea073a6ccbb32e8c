import Stepwise.Proofs.Value.Display

/-!
# Values of JSON texts and what messages show of them

A value is one of a JSON text (`Value.IsJson`) if it is built from null, truth values, numbers and
texts by lists and by mappings whose keys are texts; a whole number may have any size and a
collection any depth. A message shows such a value unless a number in it is too long or collections
stand in each other too deep, which `Value.Shown` tells and the search for a hindrance decides
(`IsJson.hindrance?_eq_none_iff`).
-/

namespace Stepwise

/-- What stands in a JSON text without parts. -/
def Scalar.IsJson : Scalar → Prop
  | null | bool _ | int _ | float _ | text _ => True
  | bytes _ | date _ | moment _ => False

namespace Value

/-- **Values of JSON texts.** -/
inductive IsJson : Value → Prop
  | scalar {s : Scalar} (h : s.IsJson) : IsJson (.scalar s)
  | list {xs : List Value} (elements : ∀ x ∈ xs, IsJson x) : IsJson (.list xs)
  | dict {es : List (Scalar × Value)} (keys : ∀ e ∈ es, ∃ t, e.1 = .text t)
      (members : ∀ e ∈ es, IsJson e.2) : IsJson (.dict es)

/-- **What a message shows** where values may stand so deep in each other: whole numbers within the
limit on digits, other scalars, and collections of what is shown one place less deep. -/
inductive Shown : Nat → Value → Prop
  | scalar {room : Nat} {s : Scalar}
      (short : ∀ i, s = .int i → i.natAbs < 10 ^ Decimal.maxDigits) : Shown (room + 1) (.scalar s)
  | list {room : Nat} {xs : List Value} (elements : ∀ x ∈ xs, Shown room x) :
      Shown (room + 1) (.list xs)
  | dict {room : Nat} {es : List (Scalar × Value)} (members : ∀ e ∈ es, Shown room e.2) :
      Shown (room + 1) (.dict es)

theorem not_shown_zero {v : Value} : ¬ Shown 0 v := fun h => by cases h

variable {room : Nat}

theorem shown_scalar {s : Scalar} : Shown (room + 1) (.scalar s) ↔
    ∀ i, s = .int i → i.natAbs < 10 ^ Decimal.maxDigits := by
  refine ⟨fun h => ?_, .scalar⟩
  cases h with
  | scalar short => exact short

theorem shown_list {xs : List Value} : Shown (room + 1) (.list xs) ↔ ∀ x ∈ xs, Shown room x := by
  refine ⟨fun h => ?_, .list⟩
  cases h with
  | list elements => exact elements

theorem shown_dict {es : List (Scalar × Value)} :
    Shown (room + 1) (.dict es) ↔ ∀ e ∈ es, Shown room e.2 := by
  refine ⟨fun h => ?_, .dict⟩
  cases h with
  | dict members => exact members

theorem not_shown_of_long {n : Nat} (h : 10 ^ Decimal.maxDigits ≤ n) : ¬ Shown room (.int n) := by
  rintro ⟨short⟩
  have hshort : n < 10 ^ Decimal.maxDigits := short n rfl
  omega

theorem scalarHindrance?_eq_none {s : Scalar} :
    scalarHindrance? s = none ↔ ∀ i, s = .int i → i.natAbs < 10 ^ Decimal.maxDigits := by
  unfold scalarHindrance? Decimal.isTooLong
  cases s <;> simp

/-- The search for what keeps a value from being shown finds nothing exactly in what is shown. -/
theorem IsJson.hindrance?_eq_none_iff {v : Value} (h : v.IsJson) :
    v.hindrance? room = none ↔ Shown room v := by
  induction h generalizing room with
  | scalar _ =>
    cases room with
    | zero => exact iff_of_false (by simp [hindrance?]) not_shown_zero
    | succ room => rw [hindrance?, scalarHindrance?_eq_none, shown_scalar]
  | list _ ih =>
    cases room with
    | zero => exact iff_of_false (by simp [hindrance?]) not_shown_zero
    | succ room =>
      rw [hindrance?_of_elements .list, List.findSome?_eq_none_iff, shown_list]
      exact forall₂_congr fun x hx => ih x hx
  | @dict es keys _ ih =>
    cases room with
    | zero => exact iff_of_false (by simp [hindrance?]) not_shown_zero
    | succ room =>
      have hshort : ∀ e ∈ es, ¬e.1.IsLong := by
        rintro e he ⟨i, hi, -⟩
        obtain ⟨t, ht⟩ := keys e he
        cases ht.symm.trans hi
      rw [hindrance?_dict, List.findSome?_eq_none_iff, shown_dict]
      refine forall₂_congr fun e he => ?_
      rw [entryHindrance?_eq_none_iff, ih e he, and_iff_right (hshort e he)]

theorem field?_nil (name : String) : field? [] name = none := rfl

theorem field?_cons (name other : String) (v : Value) (es : List (Scalar × Value)) :
    field? ((.text other, v) :: es) name = if other = name then some v else field? es name := by
  unfold field? Entries.get?
  rw [List.find?_cons, Scalar.text_beq_text, Text.ofString_beq_ofString]
  split
  · next h => rw [if_pos (beq_iff_eq.mp h)]; rfl
  · next h => rw [if_neg (beq_eq_false_iff_ne.mp h)]

/-- What a mapping of a JSON text holds under a name is a value of that text. -/
theorem isJson_of_field? {es : Entries Scalar Value} {name : String} {v : Value}
    (h : (dict es).IsJson) (hv : field? es name = some v) : v.IsJson := by
  cases h with
  | dict keys members =>
    obtain ⟨e, he, rfl⟩ := Option.map_eq_some_iff.mp hv
    exact members e (List.mem_of_find?_eq_some he)

end Value

end Stepwise
