import Mathlib.Data.List.Induction
import Stepwise.Distinct

/-!
# What is left without repetition

No two elements of a list without repetition are equal (`pairwise_distinct`), and the list is the one
that the library gives (`distinct_eq_eraseDups`). What is left of a list that gets one element more is
told by whether the element was there (`eraseDups_concat`).
-/

namespace Stepwise

section EraseDups
variable {α : Type} [BEq α] [LawfulBEq α]

/-- An element that comes again stays where it was, and a new one comes to the end. -/
theorem eraseDups_concat (xs : List α) (x : α) :
    (xs ++ [x]).eraseDups = if x ∈ xs then xs.eraseDups else xs.eraseDups ++ [x] := by
  rw [List.eraseDups_append]
  by_cases h : x ∈ xs
  · simp [h, List.removeAll]
  · simp [h, List.removeAll, List.eraseDups_cons]

theorem nodup_eraseDups (xs : List α) : xs.eraseDups.Nodup := by
  induction xs using List.reverseRecOn with
  | nil => exact List.nodup_nil
  | append_singleton xs x ih =>
    rw [eraseDups_concat]
    split
    · exact ih
    · next hx =>
      have hdisjoint : ∀ y ∈ xs.eraseDups, ∀ z ∈ [x], y ≠ z := by
        intro y hy z hz hyz
        rw [hyz, List.mem_singleton.mp hz] at hy
        exact hx (List.mem_eraseDups.mp hy)
      exact List.pairwise_append.mpr ⟨ih, List.pairwise_singleton _ x, hdisjoint⟩

/-- There is nothing to take out of a list without repetition. -/
theorem eraseDups_eq_self {xs : List α} (h : xs.Nodup) : xs.eraseDups = xs := by
  induction xs using List.reverseRecOn with
  | nil => rfl
  | append_singleton xs x ih =>
    obtain ⟨hxs, -, hdisjoint⟩ := List.nodup_append.mp h
    have hx : x ∉ xs := fun hmem => hdisjoint x hmem x List.mem_cons_self rfl
    rw [eraseDups_concat, if_neg hx, ih hxs]

end EraseDups

variable {α : Type} [BEq α] [Hashable α] [EquivBEq α] [LawfulHashable α]

theorem pairwise_distinct (xs : List α) : (distinct xs).Pairwise fun a b => (a == b) = false := by
  induction xs with
  | nil => exact .nil
  | cons x xs ih =>
    rw [distinct_cons]
    refine List.pairwise_cons.mpr ⟨fun y hy => ?_, ih.filter _⟩
    simpa using (List.mem_filter.mp hy).2

/-- Taking out elements and taking out repetitions commute, as long as equal elements go together. -/
theorem filter_distinct {p : α → Bool} (hp : ∀ a b, (a == b) = true → p a = p b) (xs : List α) :
    (distinct xs).filter p = distinct (xs.filter p) := by
  induction xs with
  | nil => rfl
  | cons x xs ih =>
    have hcomm : ((distinct xs).filter fun y => !(x == y)).filter p =
        (distinct (xs.filter p)).filter fun y => !(x == y) := by
      rw [← ih, List.filter_filter, List.filter_filter]
      exact List.filter_congr fun y _ => Bool.and_comm ..
    rw [distinct_cons, List.filter_cons, List.filter_cons, hcomm]
    by_cases hx : p x = true
    · rw [if_pos hx, if_pos hx, distinct_cons]
    · rw [if_neg hx, if_neg hx]
      -- nothing that is left equals the element that went
      refine List.filter_eq_self.mpr fun y hy => ?_
      rw [Bool.not_eq_true', Bool.eq_false_iff]
      intro hxy
      have hcontains : (distinct (xs.filter p)).contains y = true :=
        List.contains_iff_exists_mem_beq.mpr ⟨y, hy, BEq.rfl⟩
      rw [contains_distinct, List.contains_iff_exists_mem_beq] at hcontains
      obtain ⟨z, hz, hyz⟩ := hcontains
      have hpz := (List.mem_filter.mp hz).2
      rw [← hp x z (BEq.trans hxy hyz)] at hpz
      exact hx hpz

theorem distinct_eq_eraseDups : ∀ xs : List α, distinct xs = xs.eraseDups
  | [] => rfl
  | x :: xs => by
    have hlen : (xs.filter fun y => !(y == x)).length < xs.length + 1 :=
      Nat.lt_succ_of_le (List.length_filter_le _ xs)
    have hsame : ∀ y, (!(x == y)) = !(y == x) := fun y => by rw [BEq.comm]
    rw [distinct_cons, List.eraseDups_cons, ← distinct_eq_eraseDups (xs.filter _)]
    simp only [hsame]
    rw [filter_distinct fun a b hab => by rw [BEq.congr_left hab]]
termination_by xs => xs.length

end Stepwise
