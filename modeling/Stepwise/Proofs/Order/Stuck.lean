import Mathlib.Data.Fintype.Pigeonhole
import Mathlib.Data.List.Rotate
import Mathlib.Data.Set.Finite.List
import Mathlib.Dynamics.PeriodicPts.Defs
import Mathlib.Logic.Relation
import Stepwise.Proofs.Order.Least

/-!
# What cannot be arranged

A *ring* (`Ring`) is a row of at least two different elements each of which needs the next one, and
the last one the first. An element is *stuck* (`Stuck`) if waiting leads from it to a ring, in any
number of steps, none included.

* `stuck_of_supported`: a set of elements each of which waits for one of the set holds stuck
  elements only: whoever follows the waiting long enough comes back to where he was.
* `Stuck.exists_waits`: conversely the stuck elements are such a set.
* `stuck_erase`: a round takes an element that is not stuck, and changes nothing for the others.
* `arrange_error_iff`, `arrange_ok_iff`: a row is refused if and only if it has a ring, and the
  elements left are the stuck ones.
* `exists_ring_iff_way`: a ring said in places, as a way of waiting that leads back to its start.
-/

namespace Stepwise.Order

variable {α : Type} {needs : α → α → Bool}

/-- Both elements belong to the row, and the first waits for the second, which is another one. -/
def Waits (needs : α → α → Bool) (xs : List α) (a b : α) : Prop :=
  a ∈ xs ∧ b ∈ xs ∧ b ≠ a ∧ needs a b = true

/-- **A ring of waiting** in a row: at least two elements, all different, each of which needs the
next one, and the last one the first. -/
structure Ring (needs : α → α → Bool) (xs c : List α) : Prop where
  two_le : 2 ≤ c.length
  nodup : c.Nodup
  subset : c ⊆ xs
  needs_next : List.Forall₂ (fun a b => needs a b = true) c (c.rotate 1)

/-- An element is **stuck** in a row if a chain of waiting leads from it to a ring. -/
def Stuck (needs : α → α → Bool) (xs : List α) (a : α) : Prop :=
  ∃ c, Ring needs xs c ∧ ∃ b ∈ c, Relation.ReflTransGen (Waits needs xs) a b

/-! ### Stuck elements wait for stuck elements -/

theorem Waits.mono {xs ys : List α} (hxy : xs ⊆ ys) {a b : α} (h : Waits needs xs a b) :
    Waits needs ys a b :=
  ⟨hxy h.1, hxy h.2.1, h.2.2⟩

/-- Each element of a ring waits for the next one, and the last one for the first. -/
theorem Ring.waits_next {xs os : List α} (hc : Ring needs xs os) {i : ℕ} (hi : i < os.length)
    (hj : (i + 1) % os.length < os.length) :
    Waits needs xs os[i] os[(i + 1) % os.length] := by
  have hlen := hc.two_le
  have hi' : i < (os.rotate 1).length := by rw [List.length_rotate]; exact hi
  have hnext := (List.forall₂_iff_get.mp hc.needs_next).2 i hi hi'
  simp only [List.get_eq_getElem, List.getElem_rotate] at hnext
  refine ⟨hc.subset (List.getElem_mem hi), hc.subset (List.getElem_mem hj), fun he => ?_, hnext⟩
  have heq : (i + 1) % os.length = i := hc.nodup.getElem_inj_iff.mp he
  rcases Nat.lt_or_ge (i + 1) os.length with hlt | hge
  · rw [Nat.mod_eq_of_lt hlt] at heq; omega
  · have hlast : i + 1 = os.length := by omega
    rw [hlast, Nat.mod_self] at heq; omega

/-- Each element of a ring waits for another one of it. -/
theorem Ring.exists_waits {xs os : List α} (hc : Ring needs xs os) {a : α} (ha : a ∈ os) :
    ∃ b ∈ os, Waits needs xs a b := by
  obtain ⟨i, hi, rfl⟩ := List.getElem_of_mem ha
  have hj : (i + 1) % os.length < os.length := Nat.mod_lt _ (by omega)
  exact ⟨_, List.getElem_mem hj, hc.waits_next hi hj⟩

theorem Ring.stuck {xs c : List α} (hc : Ring needs xs c) {a : α} (ha : a ∈ c) :
    Stuck needs xs a :=
  ⟨c, hc, a, ha, .refl⟩

theorem Stuck.exists_waits {xs : List α} {a : α} (h : Stuck needs xs a) :
    ∃ b, Stuck needs xs b ∧ Waits needs xs a b := by
  obtain ⟨c, hc, b, hb, hab⟩ := h
  rcases hab.cases_head with rfl | ⟨d, had, hdb⟩
  · obtain ⟨d, hd, hw⟩ := hc.exists_waits hb
    exact ⟨d, hc.stuck hd, hw⟩
  · exact ⟨d, ⟨c, hc, b, hb, hdb⟩, had⟩

theorem Stuck.mem {xs : List α} {a : α} (h : Stuck needs xs a) : a ∈ xs := by
  obtain ⟨b, -, hw⟩ := h.exists_waits
  exact hw.1

/-! ### Who waits for someone who waits is stuck -/

section Supported
variable {xs : List α} {next : α → α} {X : α → Prop}
  (hnext : ∀ a, X a → X (next a) ∧ Waits needs xs a (next a))
include hnext

theorem iterate_mem (a : α) (ha : X a) : ∀ k, X (next^[k] a)
  | 0 => ha
  | k + 1 => by
    rw [Function.iterate_succ_apply']
    exact (hnext _ (iterate_mem a ha k)).1

theorem reaches_iterate (a : α) (ha : X a) :
    ∀ k, Relation.ReflTransGen (Waits needs xs) a (next^[k] a)
  | 0 => .refl
  | k + 1 => by
    rw [Function.iterate_succ_apply']
    exact (reaches_iterate a ha k).tail (hnext _ (iterate_mem hnext a ha k)).2

/-- Following the waiting in a finite row, one comes to a place where one has been. -/
theorem exists_periodic (a : α) (ha : X a) :
    ∃ m, next^[m] a ∈ Function.periodicPts next := by
  have hmem : ∀ k, next^[k] a ∈ {b | b ∈ xs} := fun k =>
    (hnext _ (iterate_mem hnext a ha k)).2.1
  have := (List.finite_toSet xs).to_subtype
  obtain ⟨m, n, hmn, he⟩ := Finite.exists_ne_map_eq_of_infinite
    (fun k : ℕ => (⟨next^[k] a, hmem k⟩ : {b | b ∈ xs}))
  have heq : next^[m] a = next^[n] a := congrArg Subtype.val he
  have hper : ∀ {m n : ℕ}, m < n → next^[m] a = next^[n] a →
      next^[m] a ∈ Function.periodicPts next := fun {m n} hlt heq =>
    ⟨n - m, by omega, by
      show next^[n - m] (next^[m] a) = next^[m] a
      rw [← Function.iterate_add_apply, Nat.sub_add_cancel hlt.le, heq]⟩
  rcases Nat.lt_or_gt_of_ne hmn with hlt | hlt
  · exact ⟨m, hper hlt heq⟩
  · exact ⟨n, hper hlt heq.symm⟩

/-- The elements met from a place on until one is back there are a ring. -/
theorem ring_orbit {b : α} (hb : X b) (hper : b ∈ Function.periodicPts next) :
    Ring needs xs ((List.range (Function.minimalPeriod next b)).map (next^[·] b)) := by
  have hpos := Function.minimalPeriod_pos_of_mem_periodicPts hper
  have hne : Function.minimalPeriod next b ≠ 1 := fun h =>
    (hnext b hb).2.2.2.1 (Function.minimalPeriod_eq_one_iff_isFixedPt.mp h)
  refine ⟨by rw [List.length_map, List.length_range]; omega, ?_, fun d hd => ?_, ?_⟩
  · refine List.Nodup.map_on (fun i hi j hj he => ?_) List.nodup_range
    exact Function.iterate_injOn_Iio_minimalPeriod (List.mem_range.mp hi) (List.mem_range.mp hj) he
  · obtain ⟨k, -, rfl⟩ := List.mem_map.mp hd
    exact (hnext _ (iterate_mem hnext b hb k)).2.1
  · refine List.forall₂_iff_get.mpr ⟨by simp, fun i hi hi' => ?_⟩
    simp only [List.get_eq_getElem, List.getElem_rotate, List.getElem_map, List.getElem_range,
      List.length_map, List.length_range, Function.iterate_mod_minimalPeriod_eq,
      Function.iterate_succ_apply']
    exact (hnext _ (iterate_mem hnext b hb i)).2.2.2.2

end Supported

/-- **Elements that wait for each other are stuck.** -/
theorem stuck_of_supported {xs : List α} (X : α → Prop)
    (hX : ∀ a, X a → ∃ b, X b ∧ Waits needs xs a b) {a : α} (ha : X a) : Stuck needs xs a := by
  classical
  have hnext : ∀ a, X a → X (if h : X a then (hX a h).choose else a) ∧
      Waits needs xs a (if h : X a then (hX a h).choose else a) := fun a h => by
    rw [dif_pos h]; exact (hX a h).choose_spec
  obtain ⟨m, hper⟩ := exists_periodic hnext a ha
  have hpos := Function.minimalPeriod_pos_of_mem_periodicPts hper
  exact ⟨_, ring_orbit hnext (iterate_mem hnext a ha m) hper, _,
    List.mem_map.mpr ⟨0, List.mem_range.mpr hpos, rfl⟩, reaches_iterate hnext a ha m⟩

theorem Stuck.mono {xs ys : List α} (hxy : xs ⊆ ys) {a : α} (h : Stuck needs xs a) :
    Stuck needs ys a :=
  stuck_of_supported (Stuck needs xs) (fun _ hb => by
    obtain ⟨c, hc, hw⟩ := hb.exists_waits
    exact ⟨c, hc, hw.mono hxy⟩) h

theorem exists_stuck_iff {xs : List α} : (∃ a, Stuck needs xs a) ↔ ∃ c, Ring needs xs c := by
  constructor
  · rintro ⟨a, c, hc, -⟩; exact ⟨c, hc⟩
  · rintro ⟨os, hc⟩
    have hlen := hc.two_le
    exact ⟨os[0], hc.stuck (List.getElem_mem (by omega))⟩

/-! ### Rounds -/

theorem filter_stuck_ne_nil {xs : List α} {p : α → Bool}
    (hp : ∀ a, p a = true ↔ Stuck needs xs a) : xs.filter p ≠ [] ↔ ∃ c, Ring needs xs c := by
  rw [← exists_stuck_iff]
  constructor
  · intro h
    obtain ⟨a, ha⟩ := List.exists_mem_of_ne_nil _ h
    exact ⟨a, (hp a).mp (List.mem_filter.mp ha).2⟩
  · rintro ⟨a, ha⟩
    exact List.ne_nil_of_mem (List.mem_filter.mpr ⟨ha.mem, (hp a).mpr ha⟩)

section Rounds
variable [DecidableEq α]

theorem not_stuck_of_ready {xs : List α} {a : α} (h : waits needs xs a = false) :
    ¬ Stuck needs xs a := by
  intro hs
  obtain ⟨b, -, -, hb, hne, hn⟩ := hs.exists_waits
  rw [waits_eq_false.mp h b hb hne] at hn
  cases hn

/-- **A round frees nobody**: without a ready element the same elements are stuck. -/
theorem stuck_erase {xs : List α} {a : α} (h : waits needs xs a = false) {b : α} :
    Stuck needs (xs.erase a) b ↔ Stuck needs xs b := by
  refine ⟨Stuck.mono List.erase_subset, fun hb => stuck_of_supported (Stuck needs xs) ?_ hb⟩
  have hmem : ∀ {c}, Stuck needs xs c → c ∈ xs.erase a := fun {c} hc => by
    have hca : c ≠ a := by rintro rfl; exact not_stuck_of_ready h hc
    exact (List.mem_erase_of_ne hca).mpr hc.mem
  intro c hc
  obtain ⟨d, hd, -, -, hne, hn⟩ := hc.exists_waits
  exact ⟨d, hd, hmem hc, hmem hd, hne, hn⟩

open Classical in
theorem filter_erase_of_ready {xs : List α} {a : α} (h : firstReady? needs xs = some a) :
    (xs.erase a).filter (Stuck needs (xs.erase a) ·) = xs.filter (Stuck needs xs ·) := by
  obtain ⟨before, after, hxs, ha, hbefore⟩ := firstReady?_eq_some h
  have hnot : a ∉ before := fun hm => by rw [hbefore a hm] at ha; cases ha
  have hs : ¬ Stuck needs xs a := not_stuck_of_ready ha
  simp only [stuck_erase ha]
  rw [hxs] at hs ⊢
  rw [List.erase_append_right _ hnot, List.erase_cons_head, List.filter_append, List.filter_append,
    List.filter_cons_of_neg (by simpa using hs)]

theorem stuck_of_none {xs : List α} (h : firstReady? needs xs = none) {a : α} (ha : a ∈ xs) :
    Stuck needs xs a := by
  refine stuck_of_supported (· ∈ xs) (fun b hb => ?_) ha
  obtain ⟨c, hc, hne, hn⟩ := waits_eq_true.mp (firstReady?_eq_none.mp h b hb)
  exact ⟨c, hc, hb, hc, hne, hn⟩

open Classical in
/-- **What is left of a row are the stuck elements**, and nothing is left of a row without. -/
theorem arrange_stuck (needs : α → α → Bool) (xs : List α) :
    (∃ r, arrange needs xs = .ok r) ∧ xs.filter (Stuck needs xs ·) = [] ∨
      arrange needs xs = .error (xs.filter (Stuck needs xs ·)) ∧
        xs.filter (Stuck needs xs ·) ≠ [] := by
  induction xs using arrange.induct needs with
  | case1 xs a hready _ ih =>
    rw [filter_erase_of_ready hready] at ih
    rw [arrange_of_ready hready]
    rcases ih with ⟨⟨r, hr⟩, hnil⟩ | ⟨he, hne⟩
    · exact Or.inl ⟨⟨a :: r, by rw [hr]; rfl⟩, hnil⟩
    · exact Or.inr ⟨by rw [he]; rfl, hne⟩
  | case2 xs hready hempty =>
    rw [arrange_of_none hready, if_pos hempty, List.isEmpty_iff.mp hempty]
    exact Or.inl ⟨⟨[], rfl⟩, rfl⟩
  | case3 xs hready hempty =>
    have hall : xs.filter (Stuck needs xs ·) = xs :=
      List.filter_eq_self.mpr fun a ha => decide_eq_true (stuck_of_none hready ha)
    rw [arrange_of_none hready, if_neg hempty, hall]
    exact Or.inr ⟨rfl, fun hnil => hempty (List.isEmpty_iff.mpr hnil)⟩

open Classical in
theorem arrange_error_iff {xs left : List α} : arrange needs xs = .error left ↔
    (∃ c, Ring needs xs c) ∧ left = xs.filter (Stuck needs xs ·) := by
  rw [← filter_stuck_ne_nil (p := (Stuck needs xs ·)) (by simp)]
  rcases arrange_stuck needs xs with ⟨⟨r, hr⟩, hnil⟩ | ⟨he, hne⟩
  · rw [hr, hnil]; simp
  · rw [he]
    exact ⟨fun h => ⟨hne, (Except.error.inj h).symm⟩, fun h => by rw [h.2]⟩

theorem arrange_ok_iff {xs : List α} :
    (∃ r, arrange needs xs = .ok r) ↔ ¬ ∃ c, Ring needs xs c := by
  constructor
  · rintro ⟨r, hr⟩ hc
    rw [arrange_error_iff.mpr ⟨hc, rfl⟩] at hr
    cases hr
  · intro h
    cases hr : arrange needs xs with
    | ok r => exact ⟨r, rfl⟩
    | error left => exact absurd (arrange_error_iff.mp hr).1 h

end Rounds

/-! ### Ways that lead back -/

/-- Following a ring one comes to each of its elements, and back to the first. -/
theorem Ring.way {xs os : List α} (hc : Ring needs xs os) (h : 0 < os.length) (k : ℕ)
    (hk : (k + 1) % os.length < os.length) :
    Relation.TransGen (Waits needs xs) os[0] os[(k + 1) % os.length] := by
  induction k with
  | zero => exact .single (hc.waits_next h hk)
  | succ k ih =>
    have hk' : (k + 1) % os.length < os.length := Nat.mod_lt _ h
    have hnext := hc.waits_next hk' (Nat.mod_lt _ h)
    simp only [Nat.mod_add_mod] at hnext
    exact (ih hk').tail hnext

/-- **A row has a ring if and only if waiting leads from some place back to it.** -/
theorem exists_ring_iff_way {xs : List α} :
    (∃ c, Ring needs xs c) ↔ ∃ i, Relation.TransGen (WaitsAt needs xs) i i := by
  classical
  constructor
  · rintro ⟨os, hc⟩
    have hlen := hc.two_le
    have hway := hc.way (by omega) (os.length - 1) (Nat.mod_lt _ (by omega))
    have hback : (os.length - 1 + 1) % os.length = 0 := by
      rw [Nat.sub_add_cancel (by omega), Nat.mod_self]
    simp only [hback] at hway
    refine ⟨xs.idxOf os[0], Relation.TransGen.lift xs.idxOf (fun a b hw => ?_) _ _ hway⟩
    obtain ⟨ha, hb, hne, hn⟩ := hw
    exact ⟨a, b, List.getElem?_idxOf ha, List.getElem?_idxOf hb, hne, hn⟩
  · rintro ⟨i, hi⟩
    rw [← exists_stuck_iff]
    obtain ⟨-, ⟨a, -, ha, -⟩, -⟩ := Relation.TransGen.head'_iff.mp hi
    refine ⟨a, stuck_of_supported
      (fun a => ∃ j, xs[j]? = some a ∧ Relation.TransGen (WaitsAt needs xs) j j) ?_ ⟨i, ha, hi⟩⟩
    rintro a ⟨j, ha, hj⟩
    obtain ⟨k, hjk, hkj⟩ := Relation.TransGen.head'_iff.mp hj
    obtain ⟨a', b, ha', hb, hne, hn⟩ := id hjk
    obtain rfl : a' = a := Option.some.inj (ha'.symm.trans ha)
    exact ⟨b, ⟨k, hb, .tail' hkj hjk⟩, List.mem_of_getElem? ha, List.mem_of_getElem? hb, hne, hn⟩

end Stepwise.Order
