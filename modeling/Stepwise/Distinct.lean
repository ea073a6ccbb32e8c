import Std.Data.HashSet.Lemmas

/-!
# Lists without repetition

`distinct` keeps of equal elements the first one. A set of the elements met so far saves it from
going over them again and again; what it gives can be told without the set, as `distinct_cons` and
`contains_distinct` do.
-/

namespace Stepwise

variable {α : Type} [BEq α] [Hashable α]

/-- A list without its repetitions and without what has been met before. -/
def distinctFrom (met : Std.HashSet α) : List α → List α
  | [] => []
  | x :: xs =>
    if met.contains x then distinctFrom met xs else x :: distinctFrom (met.insert x) xs

/-- A list without its repetitions: of equal elements the first one stays. -/
def distinct (xs : List α) : List α := distinctFrom ∅ xs

variable [EquivBEq α] [LawfulHashable α]

theorem distinctFrom_eq_filter (met : Std.HashSet α) (xs : List α) :
    distinctFrom met xs = (distinct xs).filter fun x => !met.contains x := by
  unfold distinct
  induction xs generalizing met with
  | nil => rfl
  | cons x xs ih =>
    have hx : distinctFrom ∅ (x :: xs) = x :: distinctFrom ((∅ : Std.HashSet α).insert x) xs := by
      simp [distinctFrom]
    rw [hx, distinctFrom, List.filter_cons, ih (Std.HashSet.insert ∅ x), List.filter_filter]
    split
    · next h =>
      rw [ih met, h]
      refine List.filter_congr fun y _ => ?_
      by_cases hxy : x == y
      · simp [← Std.HashSet.contains_congr hxy, h]
      · simp [hxy]
    · next h =>
      rw [ih (met.insert x)]
      simp only [h, Bool.not_false, if_true, List.cons.injEq, true_and]
      refine List.filter_congr fun y _ => ?_
      simp [Std.HashSet.contains_insert, Bool.and_comm]

@[simp] theorem distinct_cons (x : α) (xs : List α) :
    distinct (x :: xs) = x :: (distinct xs).filter fun y => !(x == y) := by
  have h : distinct (x :: xs) = x :: distinctFrom ((∅ : Std.HashSet α).insert x) xs := by
    simp [distinct, distinctFrom]
  rw [h, distinctFrom_eq_filter]
  simp [Std.HashSet.contains_insert]

theorem contains_distinct (xs : List α) (y : α) : (distinct xs).contains y = xs.contains y := by
  induction xs with
  | nil => rfl
  | cons x xs ih =>
    rw [distinct_cons, List.contains_cons, List.contains_cons, ← ih]
    by_cases h : y == x
    · simp [h]
    · rw [Bool.eq_iff_iff]
      simp only [h, Bool.false_or, List.contains_iff_exists_mem_beq, List.mem_filter]
      constructor
      · rintro ⟨z, ⟨hz, -⟩, hyz⟩
        exact ⟨z, hz, hyz⟩
      · rintro ⟨z, hz, hyz⟩
        refine ⟨z, ⟨hz, ?_⟩, hyz⟩
        rw [Bool.not_eq_true']
        exact Bool.eq_false_iff.2 fun hxz => h (BEq.trans hyz (BEq.symm hxz))

end Stepwise
