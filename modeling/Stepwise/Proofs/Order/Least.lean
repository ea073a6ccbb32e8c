import Mathlib.Data.List.Lex
import Stepwise.Flow.Order

/-!
# The least valid arrangement

To arrange a row `xs` is to choose an order of its places. An order is *valid* (`Valid`) if it has
each place once and no place before one whose element it waits for, where an element waits for
another one that it needs, and never for itself. Orders of places are compared by Mathlib's
lexicographic order on `List ℕ`.

* `exists_ready`: what a round finds, said in places: the first place of those left that waits for
  none of them; all places before it wait.
* `exists_least`: what all rounds give is valid and least among the valid orders of the places left.
  An order that begins with another place than the round takes begins with a later one, since a
  valid order begins with a place that waits for none.
* `arrange_ok`: the same for the whole row.
-/

namespace Stepwise.Order

variable {α : Type}

/-! ### What one round does -/

section Round
variable [DecidableEq α] {needs : α → α → Bool}

theorem waits_eq_false {xs : List α} {a : α} :
    waits needs xs a = false ↔ ∀ b ∈ xs, b ≠ a → needs a b = false := by
  simp [waits]

theorem waits_eq_true {xs : List α} {a : α} :
    waits needs xs a = true ↔ ∃ b ∈ xs, b ≠ a ∧ needs a b = true := by
  simp [waits]

theorem arrange_of_ready {xs : List α} {a : α} (h : firstReady? needs xs = some a) :
    arrange needs xs = (arrange needs (xs.erase a)).map (a :: ·) := by
  rw [arrange]
  split
  · next b hb => rw [h] at hb; cases hb; rfl
  · next hb => rw [h] at hb; cases hb

theorem arrange_of_none {xs : List α} (h : firstReady? needs xs = none) :
    arrange needs xs = if xs.isEmpty then .ok [] else .error xs := by
  rw [arrange]
  split
  · next b hb => rw [h] at hb; cases hb
  · rfl

theorem arrange_step {xs ys r : List α} {a : α} (h : firstReady? needs xs = some a)
    (he : xs.erase a = ys) (hr : arrange needs ys = .ok r) : arrange needs xs = .ok (a :: r) := by
  rw [arrange_of_ready h, he, hr]; rfl

theorem firstReady?_eq_some {xs : List α} {a : α} (h : firstReady? needs xs = some a) :
    ∃ before after, xs = before ++ a :: after ∧ waits needs xs a = false ∧
      ∀ b ∈ before, waits needs xs b = true := by
  obtain ⟨ha, before, after, hxs, hb⟩ := List.find?_eq_some_iff_append.mp h
  exact ⟨before, after, hxs, by simpa using ha, fun b hbm => by simpa using hb b hbm⟩

theorem firstReady?_eq_none {xs : List α} :
    firstReady? needs xs = none ↔ ∀ a ∈ xs, waits needs xs a = true := by
  simp [firstReady?]

end Round

/-! ### Places -/

/-- The element at place `i` waits for the one at place `j`, which is another one. -/
def WaitsAt (needs : α → α → Bool) (xs : List α) (i j : ℕ) : Prop :=
  ∃ a b, xs[i]? = some a ∧ xs[j]? = some b ∧ b ≠ a ∧ needs a b = true

/-- **A valid order of the places**: each place stands in it once, and none before one that it
waits for. -/
structure Valid (needs : α → α → Bool) (xs : List α) (ps : List ℕ) : Prop where
  perm : ps.Perm (List.range xs.length)
  waits : ps.Pairwise fun i j => ¬ WaitsAt needs xs i j

/-- The row `r` as an order of the places of `xs`: they hold the elements of `r`, and places of one
element stand in their order. -/
structure Reads (xs : List α) (ps : List ℕ) (r : List α) : Prop where
  elements : ps.map (xs[·]?) = r.map some
  inOrder : ps.Pairwise fun i j => xs[i]? = xs[j]? → i < j

section Places
variable {xs ys : List α} {is : List ℕ} (hys : is.map (xs[·]?) = ys.map some)
include hys

theorem mem_of_place {i : ℕ} {a : α} (hi : i ∈ is) (ha : xs[i]? = some a) : a ∈ ys := by
  have h : some a ∈ ys.map some := hys ▸ ha ▸ List.mem_map_of_mem hi
  simpa using h

theorem exists_element {i : ℕ} (hi : i ∈ is) : ∃ a ∈ ys, xs[i]? = some a := by
  have h : xs[i]? ∈ ys.map some := hys ▸ List.mem_map_of_mem hi
  obtain ⟨a, ha, he⟩ := List.mem_map.mp h
  exact ⟨a, ha, he.symm⟩

theorem exists_place {a : α} (ha : a ∈ ys) : ∃ i ∈ is, xs[i]? = some a := by
  have h : some a ∈ is.map (xs[·]?) := hys ▸ List.mem_map_of_mem ha
  obtain ⟨i, hi, he⟩ := List.mem_map.mp h
  exact ⟨i, hi, he⟩

variable [DecidableEq α] {needs : α → α → Bool}

/-- An element of the row is ready if and only if its place waits for none of the places. -/
theorem waits_eq_false_iff {i : ℕ} {a : α} (ha : xs[i]? = some a) :
    waits needs ys a = false ↔ ∀ j ∈ is, ¬ WaitsAt needs xs i j := by
  rw [waits_eq_false]
  constructor
  · rintro h j hj ⟨a', b, ha', hb, hne, hn⟩
    obtain rfl : a = a' := by rw [ha] at ha'; exact Option.some.inj ha'
    rw [h b (mem_of_place hys hj hb) hne] at hn
    cases hn
  · intro h b hb hne
    obtain ⟨j, hj, hjb⟩ := exists_place hys hb
    exact Bool.eq_false_iff.mpr fun hn => h j hj ⟨a, b, ha, hjb, hne, hn⟩

/-- **What a round finds**: the first place that waits for none of the places left. -/
theorem exists_ready {a : α} (h : firstReady? needs ys = some a) :
    ∃ js i ks, is = js ++ i :: ks ∧ xs[i]? = some a ∧ (∀ j ∈ is, ¬ WaitsAt needs xs i j) ∧
      (∀ j ∈ js, xs[j]? ≠ some a ∧ ∃ k ∈ is, WaitsAt needs xs j k) ∧
      (js ++ ks).map (xs[·]?) = (ys.erase a).map some := by
  obtain ⟨before, after, hsplit, ha, hbefore⟩ := firstReady?_eq_some h
  have hmap := hys
  rw [hsplit, List.map_append, List.map_cons] at hmap
  obtain ⟨js, l, rfl, hjs, hl⟩ := List.map_eq_append_iff.mp hmap
  obtain ⟨i, ks, rfl, hi, hks⟩ := List.map_eq_cons_iff.mp hl
  have hnot : a ∉ before := fun hm => by rw [hbefore a hm] at ha; cases ha
  refine ⟨js, i, ks, rfl, hi, (waits_eq_false_iff hys hi).mp ha, fun j hj => ?_, ?_⟩
  · obtain ⟨b, hb, hjb⟩ := exists_element hjs hj
    refine ⟨fun he => ?_, ?_⟩
    · rw [hjb] at he
      exact hnot (Option.some.inj he ▸ hb)
    · by_contra hn
      push Not at hn
      rw [← waits_eq_false_iff hys hjb, hbefore b hb] at hn
      cases hn
  · rw [hsplit, List.erase_append_right _ hnot, List.erase_cons_head, List.map_append,
      List.map_append, hjs, hks]

end Places

/-! ### All rounds -/

/-- **The rounds give the least valid order** of the places left, `is` in increasing order and `ys`
the elements at them. -/
theorem exists_least [DecidableEq α] {needs : α → α → Bool} (xs : List α) {ys r : List α}
    (h : arrange needs ys = .ok r) :
    ∀ is : List ℕ, is.Pairwise (· < ·) → is.map (xs[·]?) = ys.map some →
      ∃ ps, ps.Perm is ∧ Reads xs ps r ∧ (ps.Pairwise fun i j => ¬ WaitsAt needs xs i j) ∧
        ∀ qs, qs.Perm is → (qs.Pairwise fun i j => ¬ WaitsAt needs xs i j) → ps ≤ qs := by
  induction ys using arrange.induct needs generalizing r with
  | case1 ys a hready _ ih =>
    intro is his hys
    rw [arrange_of_ready hready] at h
    cases hr : arrange needs (ys.erase a) with
    | error left => rw [hr] at h; cases h
    | ok r' =>
      rw [hr] at h
      obtain rfl : a :: r' = r := Except.ok.inj h
      obtain ⟨js, i, ks, rfl, hia, hfree, hjs, hrest⟩ := exists_ready hys hready
      have hmid : (js ++ i :: ks).Perm (i :: (js ++ ks)) := List.perm_middle
      have hlt : (js ++ ks).Pairwise (· < ·) :=
        his.sublist (List.Sublist.append_left (List.sublist_cons_self i ks) js)
      obtain ⟨ps, hperm, ⟨hel, hord⟩, hval, hleast⟩ := ih hr (js ++ ks) hlt hrest
      have hik : ∀ k ∈ ks, i < k :=
        (List.pairwise_cons.mp (List.pairwise_append.mp his).2.1).1
      refine ⟨i :: ps, (hperm.cons i).trans hmid.symm,
        ⟨by rw [List.map_cons, List.map_cons, hel, hia], List.pairwise_cons.mpr ⟨?_, hord⟩⟩,
        List.pairwise_cons.mpr ⟨?_, hval⟩, fun qs hqs hqv => ?_⟩
      · intro j hj he
        rcases List.mem_append.mp (hperm.mem_iff.mp hj) with hj | hj
        · exact absurd (he.symm.trans hia) (hjs j hj).1
        · exact hik j hj
      · intro j hj
        exact hfree j (hmid.mem_iff.mpr (List.mem_cons_of_mem i (hperm.mem_iff.mp hj)))
      · -- A valid order begins with a ready place, so not with one before `i`.
        cases qs with
        | nil => exact absurd (hqs.trans hmid).symm (by simp)
        | cons q qs =>
          obtain ⟨hq, hqv'⟩ := List.pairwise_cons.mp hqv
          by_cases hqi : i = q
          · subst hqi
            exact List.cons_le_cons i (hleast qs (hqs.trans hmid).cons_inv hqv')
          · suffices hiq : i < q from le_of_lt (List.Lex.rel hiq)
            have hqm : q ∈ js ++ i :: ks := hqs.mem_iff.mp List.mem_cons_self
            rcases List.mem_append.mp hqm with hm | hm
            · obtain ⟨k, hk, hw⟩ := (hjs q hm).2
              rcases List.mem_cons.mp (hqs.mem_iff.mpr hk) with rfl | hk'
              · obtain ⟨b, c, hb, hc, hne, -⟩ := hw
                exact absurd (Option.some.inj (hc.symm.trans hb)) hne
              · exact absurd hw (hq k hk')
            · rcases List.mem_cons.mp hm with rfl | hm
              · exact absurd rfl hqi
              · exact hik q hm
  | case2 ys hready hempty =>
    intro is his hys
    rw [arrange_of_none hready, if_pos hempty] at h
    obtain rfl : ([] : List α) = r := Except.ok.inj h
    obtain rfl := List.isEmpty_iff.mp hempty
    obtain rfl : is = [] := by simpa using hys
    exact ⟨[], .refl _, ⟨rfl, .nil⟩, .nil, fun qs hqs _ => by simp [List.perm_nil.mp hqs]⟩
  | case3 ys hready hempty =>
    rw [arrange_of_none hready, if_neg hempty] at h
    cases h

theorem map_places (xs : List α) : (List.range xs.length).map (xs[·]?) = xs.map some := by
  apply List.ext_getElem <;> simp

/-- What a filter keeps, said in places. -/
theorem filter_places (xs : List α) (p : α → Bool) : (xs.filter p).map some =
    ((List.range xs.length).filter fun i => xs[i]?.any p).map (xs[·]?) := by
  have h : xs.filter p = xs.filter ((Option.any p) ∘ some) := rfl
  rw [h, ← List.filter_map, ← map_places, List.filter_map]
  rfl

/-- **An arrangement is the least valid order** of the places of the row. -/
theorem arrange_ok [DecidableEq α] {needs : α → α → Bool} {xs r : List α}
    (h : arrange needs xs = .ok r) :
    ∃ ps, Reads xs ps r ∧ Valid needs xs ps ∧ ∀ qs, Valid needs xs qs → ps ≤ qs := by
  obtain ⟨ps, hperm, hread, hval, hleast⟩ :=
    exists_least xs h (List.range xs.length) List.pairwise_lt_range (map_places xs)
  exact ⟨ps, hread, ⟨hperm, hval⟩, fun qs hqs => hleast qs hqs.perm hqs.waits⟩

/-- A row that was arranged has lost and gained nothing. -/
theorem Reads.perm {xs r : List α} {ps : List ℕ} (hr : Reads xs ps r)
    (hp : ps.Perm (List.range xs.length)) : r.Perm xs := by
  have h : (r.map some).Perm ((List.range xs.length).map (xs[·]?)) := hr.elements ▸ hp.map _
  rw [map_places] at h
  simpa using h.filterMap id

end Stepwise.Order
