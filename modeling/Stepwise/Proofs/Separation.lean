import Mathlib.Data.List.Basic

/-!
# Rows with separators

A row that is put together from parts with separators between them can be taken apart again if the
separators do not occur inside the parts.

* `append_cons_inj`, `append_separator_inj`: the part in front of the first separator is determined.
* `prefix_of_separator`, `infix_of_separator`: what holds no separator stands inside one part.
-/

namespace Stepwise

variable {α : Type} {a b : α} {xs xs' ys ys' zs : List α}

/-- Two rows that agree up to the first element that is not of some kind agree. -/
theorem append_cons_inj {p : α → Prop} (h : ∀ x ∈ xs, p x) (h' : ∀ x ∈ xs', p x) (ha : ¬ p a)
    (hb : ¬ p b) (heq : xs ++ a :: ys = xs' ++ b :: ys') : xs = xs' ∧ a = b ∧ ys = ys' := by
  induction xs generalizing xs' with
  | nil =>
    cases xs' with
    | nil => exact ⟨rfl, List.cons.inj heq⟩
    | cons x xs' =>
      have hax : a = x := (List.cons.inj heq).1
      exact absurd (h' x List.mem_cons_self) (hax ▸ ha)
  | cons x xs ih =>
    cases xs' with
    | nil =>
      have hxb : x = b := (List.cons.inj heq).1
      exact absurd (h x List.mem_cons_self) (hxb ▸ hb)
    | cons y xs' =>
      obtain ⟨rfl, hrest⟩ := List.cons.inj heq
      obtain ⟨rfl, hab, hys⟩ := ih (fun z hz => h z (List.mem_cons_of_mem _ hz))
        (fun z hz => h' z (List.mem_cons_of_mem _ hz)) hrest
      exact ⟨rfl, hab, hys⟩

/-- Two rows that agree up to a separator that neither of them has agree. -/
theorem append_separator_inj (h : a ∉ xs) (h' : a ∉ xs') (heq : xs ++ a :: ys = xs' ++ a :: ys') :
    xs = xs' ∧ ys = ys' := by
  obtain ⟨hxs, -, hys⟩ := append_cons_inj (p := (· ≠ a)) (fun x hx => ne_of_mem_of_not_mem hx h)
    (fun x hx => ne_of_mem_of_not_mem hx h') (not_not.mpr rfl) (not_not.mpr rfl) heq
  exact ⟨hxs, hys⟩

/-- What begins a row and holds no separator begins the part in front of the first one. -/
theorem prefix_of_separator (h : a ∉ zs) (hbegins : zs <+: xs ++ a :: ys) : zs <+: xs := by
  rcases Nat.lt_or_ge xs.length zs.length with hlt | hle
  · have hlen : (xs ++ [a]).length ≤ zs.length := by
      rw [List.length_append, List.length_singleton]; omega
    have hlonger : xs ++ [a] <+: zs := List.prefix_of_prefix_length_le ⟨ys, by simp⟩ hbegins hlen
    exact absurd (hlonger.subset (by simp)) h
  · exact List.prefix_of_prefix_length_le hbegins (List.prefix_append _ _) hle

/-- What stands in a row and holds no separator stands on one side of it. -/
theorem infix_of_separator (h : a ∉ zs) (hin : zs <:+: xs ++ a :: ys) :
    zs <:+: xs ∨ zs <:+: ys := by
  induction xs with
  | nil =>
    rcases List.infix_cons_iff.mp hin with hbegins | hys
    · exact Or.inl (prefix_of_separator h hbegins).isInfix
    · exact Or.inr hys
  | cons x xs ih =>
    rcases List.infix_cons_iff.mp hin with hbegins | hrest
    · exact Or.inl (prefix_of_separator h hbegins).isInfix
    · exact (ih hrest).imp_left fun hxs => List.infix_cons hxs

end Stepwise
