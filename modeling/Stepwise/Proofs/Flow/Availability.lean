import Stepwise.Proofs.Distinct
import Stepwise.Proofs.Flow.Sorting

/-!
# What is available when a step runs

The variables that a flow requires are there from the start, and each step adds those that it
provides. If the steps run in the sorted order, then every variable that a step reads is there when it
starts, unless the step is the only one that writes it.

* `contains_provides`, `contains_requires`: the variables of a flow by those of its steps.
* `available`, `contains_available`: the variables that there are after some steps have run.
* `sorted_pairwise`: in the sorted order no step needs another one that comes later.
* `sorted_supplied`: what a step reads is required of the outside, or has been written by all others
  that write it.
-/

namespace Stepwise.Flow

variable {f : Flow} {v : Scalar}

/-! ### The variables of a flow -/

/-- Some step of a flow writes a variable. -/
def Writes (f : Flow) (v : Scalar) : Prop := ∃ s ∈ f.steps, s.provides.contains v = true

/-- Equal variables are kept or left out together. -/
theorem contains_filter {p : Scalar → Bool} (hp : ∀ v w, (v == w) = true → p v = p w)
    {vs : List Scalar} :
    (vs.filter p).contains v = true ↔ vs.contains v = true ∧ p v = true := by
  simp only [List.contains_iff_exists_mem_beq, List.mem_filter]
  constructor
  · rintro ⟨w, ⟨hw, hpw⟩, hvw⟩
    exact ⟨⟨w, hw, hvw⟩, (hp v w hvw).trans hpw⟩
  · rintro ⟨⟨w, hw, hvw⟩, hpv⟩
    exact ⟨w, ⟨hw, (hp v w hvw).symm.trans hpv⟩, hvw⟩

theorem contains_provides : f.provides.contains v = true ↔ f.Writes v := by
  unfold provides Writes
  rw [contains_distinct, List.contains_flatMap, List.any_eq_true]

theorem requires_eq : f.requires =
    distinct ((f.steps.flatMap Step.requires).filter fun v => !f.provides.contains v) := by
  unfold requires
  simp only [Std.HashSet.contains_ofList]

theorem contains_requires : f.requires.contains v = true ↔
    (∃ s ∈ f.steps, s.requires.contains v = true) ∧ ¬ f.Writes v := by
  have hp : ∀ v w, (v == w) = true → (!f.provides.contains v) = !f.provides.contains w :=
    fun v w hvw => by rw [List.contains_congr hvw]
  rw [requires_eq, contains_distinct, contains_filter hp, List.contains_flatMap,
    List.any_eq_true, Bool.not_eq_true', Bool.eq_false_iff, Ne, contains_provides]

/-! ### A run of the steps -/

/-- **The variables that there are** when some objects of a flow have run, one after the other. -/
def available (f : Flow) (run : List (Fin f.objects.length)) : List Scalar :=
  run.foldl (fun vs i => vs ++ (f.step i).provides) f.requires

theorem contains_available {run : List (Fin f.objects.length)} :
    (f.available run).contains v = true ↔ f.requires.contains v = true ∨
      ∃ i ∈ run, (f.step i).provides.contains v = true := by
  unfold available
  generalize f.requires = start
  induction run generalizing start with
  | nil => simp
  | cons i run ih =>
    rw [List.foldl_cons, ih]
    simp [or_assoc]

theorem writes_iff : f.Writes v ↔ ∃ i ∈ f.places, (f.step i).provides.contains v = true := by
  simp [Writes, steps]

theorem needs_iff {i j : Fin f.objects.length} : f.needs i j = true ↔
    ∃ v ∈ (f.step i).requires, (f.step j).provides.contains v = true := by
  simp [needs, Step.dependsOn]

section Sorted
variable {r : List (Fin f.objects.length)} (h : f.sorted = .ok r)
include h

theorem sorted_perm : r.Perm f.places := by
  obtain ⟨ps, hreads, hvalid, -⟩ := exists_places h
  exact hreads.perm hvalid.perm

/-- No step needs another one that comes later. -/
theorem sorted_pairwise : r.Pairwise fun i j => j ≠ i → f.needs i j = false := by
  obtain ⟨ps, hreads, hvalid, -⟩ := exists_places h
  -- the same of the places, whose row is that of the objects
  have hplaces : (ps.map (f.places[·]?)).Pairwise fun a b =>
      ∀ i j, a = some i → b = some j → j ≠ i → f.needs i j = false := by
    refine List.pairwise_map.mpr (hvalid.waits.imp fun {p q} hwaits i j hi hj hne => ?_)
    exact Bool.eq_false_iff.mpr fun hn => hwaits ⟨i, j, hi, hj, hne, hn⟩
  rw [hreads.elements, List.pairwise_map] at hplaces
  exact hplaces.imp fun hall => hall _ _ rfl rfl

/-- Whoever writes what a step reads stands before it. -/
theorem lt_of_provides {p q : ℕ} {i j : Fin f.objects.length} (hi : r[p]? = some i)
    (hj : r[q]? = some j) (hne : j ≠ i) (hv : v ∈ (f.step i).requires)
    (hp : (f.step j).provides.contains v = true) : q < p := by
  obtain ⟨hplt, rfl⟩ := List.getElem?_eq_some_iff.mp hi
  obtain ⟨hqlt, rfl⟩ := List.getElem?_eq_some_iff.mp hj
  by_contra hge
  have hpq : p ≠ q := by rintro rfl; exact hne rfl
  have hlater := List.pairwise_iff_getElem.mp (sorted_pairwise h) p q hplt hqlt (by omega) hne
  rw [needs_iff.mpr ⟨v, hv, hp⟩] at hlater
  cases hlater

/-- What a step reads is there, unless the step is the only one that writes it. -/
theorem available_of_sorted {p : ℕ} {i : Fin f.objects.length} (hi : r[p]? = some i)
    (hv : v ∈ (f.step i).requires) : (f.available (r.take p)).contains v = true ∨
      (f.step i).provides.contains v = true ∧
        ∀ j ∈ f.places, (f.step j).provides.contains v = true → j = i := by
  have hperm := sorted_perm h
  by_cases hother : ∃ j ∈ f.places, (f.step j).provides.contains v = true ∧ j ≠ i
  · obtain ⟨j, hj, hp, hne⟩ := hother
    obtain ⟨q, hq⟩ := List.mem_iff_getElem?.mp (hperm.mem_iff.mpr hj)
    have hlt := lt_of_provides h hi hq hne hv hp
    have htake : j ∈ r.take p :=
      List.mem_iff_getElem?.mpr ⟨q, by rw [List.getElem?_take_of_lt hlt, hq]⟩
    exact Or.inl (contains_available.mpr (Or.inr ⟨j, htake, hp⟩))
  · push Not at hother
    by_cases hself : (f.step i).provides.contains v = true
    · exact Or.inr ⟨hself, hother⟩
    · have hmem : i ∈ f.places := hperm.mem_iff.mp (List.mem_of_getElem? hi)
      have hstep : f.step i ∈ f.steps := List.mem_map_of_mem hmem
      have hwrites : ¬ f.Writes v := fun hw => by
        obtain ⟨j, hj, hp⟩ := writes_iff.mp hw
        rw [hother j hj hp] at hp
        exact hself hp
      have hreads : (f.step i).requires.contains v = true :=
        List.contains_iff_exists_mem_beq.mpr ⟨v, hv, BEq.rfl⟩
      exact Or.inl (contains_available.mpr
        (Or.inl (contains_requires.mpr ⟨⟨_, hstep, hreads⟩, hwrites⟩)))

end Sorted

/-! ### What the order and the variables have to do with each other -/

/-- **A row of the steps of a flow is supplied**: what a step reads is required of the outside if and
only if no step writes it, whoever else writes it stands before, and so it is there when the step
starts, unless the step is the only one that writes it. What is required and what is provided have no
repetition and nothing in common, and together are all that the steps read and write. -/
structure Supplied (f : Flow) (r : List (Fin f.objects.length)) : Prop where
  required : ∀ (p : ℕ) (i : Fin f.objects.length), r[p]? = some i → ∀ v ∈ (f.step i).requires,
    (f.requires.contains v = true ↔ ¬ f.Writes v)
  before : ∀ (p : ℕ) (i : Fin f.objects.length), r[p]? = some i → ∀ v ∈ (f.step i).requires,
    ∀ (q : ℕ) (j : Fin f.objects.length), r[q]? = some j → j ≠ i →
    (f.step j).provides.contains v = true → q < p
  there : ∀ (p : ℕ) (i : Fin f.objects.length), r[p]? = some i → ∀ v ∈ (f.step i).requires,
    (f.available (r.take p)).contains v = true ∨ (f.step i).provides.contains v = true ∧
      ∀ j ∈ f.places, (f.step j).provides.contains v = true → j = i
  distinct_requires : f.requires.Pairwise fun v w => (v == w) = false
  distinct_provides : f.provides.Pairwise fun v w => (v == w) = false
  disjoint : ∀ v, f.requires.contains v = true → f.provides.contains v = false
  complete : ∀ v, f.requires.contains v = true ∨ f.provides.contains v = true ↔
    ∃ s ∈ f.steps, s.requires.contains v = true ∨ s.provides.contains v = true

/-- **The sorted row is supplied.** -/
theorem sorted_supplied (f : Flow) {r : List (Fin f.objects.length)} (h : f.sorted = .ok r) :
    Supplied f r where
  required p i hi v hv := by
    have hmem : i ∈ f.places := (sorted_perm h).mem_iff.mp (List.mem_of_getElem? hi)
    have hreads : ∃ s ∈ f.steps, s.requires.contains v = true :=
      ⟨f.step i, List.mem_map_of_mem hmem, List.contains_iff_exists_mem_beq.mpr ⟨v, hv, BEq.rfl⟩⟩
    rw [contains_requires]
    exact and_iff_right hreads
  before p i hi v hv q j hj hne hp := lt_of_provides h hi hj hne hv hp
  there p i hi v hv := available_of_sorted h hi hv
  distinct_requires := by
    rw [requires_eq]
    exact pairwise_distinct _
  distinct_provides := pairwise_distinct _
  disjoint v hv := by
    rw [Bool.eq_false_iff, Ne, contains_provides]
    exact (contains_requires.mp hv).2
  complete v := by
    rw [contains_requires, contains_provides]
    constructor
    · rintro (⟨⟨s, hs, hv⟩, -⟩ | ⟨s, hs, hv⟩)
      · exact ⟨s, hs, Or.inl hv⟩
      · exact ⟨s, hs, Or.inr hv⟩
    · rintro ⟨s, hs, hv | hv⟩
      · by_cases hw : f.Writes v
        · exact Or.inr hw
        · exact Or.inl ⟨⟨s, hs, hv⟩, hw⟩
      · exact Or.inr ⟨s, hs, hv⟩

/-- A step that stands at two places, reads what two others write, and reads `x`, which nobody writes;
one of the others reads what it writes itself. -/
def counted : Flow where
  name := none
  goal := none
  objects := [{ goal := none, requires := [.text [.char 'a'], .text [.char 'x']] },
    { goal := none, provides := [.text [.char 'a']] },
    { goal := none, requires := [.text [.char 'n']],
      provides := [.text [.char 'n'], .text [.char 'a']] }]
  places := [0, 1, 2, 0]

theorem sorted_supplied_counted : counted.sorted = .ok ([1, 2, 0, 0] : List (Fin 3)) ∧
    Supplied counted ([1, 2, 0, 0] : List (Fin 3)) := by
  have h : counted.sorted = .ok ([1, 2, 0, 0] : List (Fin 3)) :=
    sorted_ok_iff.mpr <| Order.arrange_step (by decide) rfl <| Order.arrange_step (by decide) rfl <|
      Order.arrange_step (by decide) rfl <| Order.arrange_step (by decide) rfl <|
        Order.arrange_of_none rfl
  exact ⟨h, sorted_supplied counted h⟩

end Stepwise.Flow
