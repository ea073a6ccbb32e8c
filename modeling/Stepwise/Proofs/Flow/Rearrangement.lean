import Stepwise.Proofs.Flow.Availability
import Stepwise.Proofs.Flow.WellFormed

/-!
# Flows of the same steps in another order

A flow lists its steps, and sorting goes by that order; but whether the steps can be sorted at all,
who is to blame if they cannot, whether the flow is well formed, and which variables it has are the
same for all orders of the same objects. An object may have another number in the other flow, so the
two rows are compared along a map from the objects of the one to those of the other.

* `Order.stuck_map_iff`, `Order.filter_stuck_perm`: along such a map the same elements are stuck,
  and what is left of the two rows is the same in another order.
* `Rearranged`: two flows of the same objects. Their steps are the same in another order
  (`Rearranged.steps_perm`), and so is what is left of them (`Rearranged.goals_perm`).
* `holds_of_rearranged`: each check that the one passes is passed by the other.
* `rearranged_alike`: validation, sorting and the variables do not tell the two apart.
-/

namespace Stepwise

namespace Order

section Map
variable {α β : Type} {needs : α → α → Bool} {needs' : β → β → Bool} {e : α → β} {xs : List α}
  {ys : List β} (hinj : ∀ a ∈ xs, ∀ b ∈ xs, e a = e b → a = b)
  (hneeds : ∀ a ∈ xs, ∀ b ∈ xs, needs' (e a) (e b) = needs a b) (hperm : (xs.map e).Perm ys)
include hinj hneeds hperm

/-- Waiting is the same along a map that keeps the needs and the elements apart. -/
theorem waits_map_iff {a b : α} (ha : a ∈ xs) (hb : b ∈ xs) :
    Waits needs' ys (e a) (e b) ↔ Waits needs xs a b := by
  have hmem : ∀ {c}, c ∈ xs → e c ∈ ys := fun hc => hperm.mem_iff.mp (List.mem_map_of_mem hc)
  unfold Waits
  rw [hneeds a ha b hb]
  constructor
  · rintro ⟨-, -, hne, hn⟩
    exact ⟨ha, hb, fun he => hne (congrArg e he), hn⟩
  · rintro ⟨-, -, hne, hn⟩
    exact ⟨hmem ha, hmem hb, fun he => hne (hinj b hb a ha he), hn⟩

/-- **The same elements are stuck.** -/
theorem stuck_map_iff {a : α} (ha : a ∈ xs) : Stuck needs' ys (e a) ↔ Stuck needs xs a := by
  constructor
  · intro h
    refine stuck_of_supported (fun a => a ∈ xs ∧ Stuck needs' ys (e a)) ?_ ⟨ha, h⟩
    rintro a ⟨ha, hs⟩
    obtain ⟨b', hb', hw⟩ := hs.exists_waits
    obtain ⟨b, hb, rfl⟩ := List.mem_map.mp (hperm.mem_iff.mpr hw.2.1)
    exact ⟨b, ⟨hb, hb'⟩, (waits_map_iff hinj hneeds hperm ha hb).mp hw⟩
  · intro h
    refine stuck_of_supported (fun b => ∃ a, Stuck needs xs a ∧ e a = b) ?_ ⟨a, h, rfl⟩
    rintro _ ⟨a, hs, rfl⟩
    obtain ⟨b, hb, hw⟩ := hs.exists_waits
    exact ⟨e b, ⟨b, hb, rfl⟩, (waits_map_iff hinj hneeds hperm hs.mem hb.mem).mpr hw⟩

open Classical in
/-- What is left of the two rows is the same in another order. -/
theorem filter_stuck_perm : ((xs.filter (Stuck needs xs ·)).map e).Perm
    (ys.filter (Stuck needs' ys ·)) := by
  have hsame : xs.filter (Stuck needs xs ·) = xs.filter ((Stuck needs' ys ·) ∘ e) :=
    List.filter_congr fun a ha =>
      decide_eq_decide.mpr (stuck_map_iff hinj hneeds hperm ha).symm
  rw [hsame, ← List.filter_map]
  exact hperm.filter _

theorem exists_ring_map_iff : (∃ c, Ring needs' ys c) ↔ ∃ c, Ring needs xs c := by
  rw [← exists_stuck_iff, ← exists_stuck_iff]
  constructor
  · rintro ⟨b, hb⟩
    obtain ⟨a, ha, rfl⟩ := List.mem_map.mp (hperm.mem_iff.mpr hb.mem)
    exact ⟨a, (stuck_map_iff hinj hneeds hperm ha).mp hb⟩
  · rintro ⟨a, ha⟩
    exact ⟨e a, (stuck_map_iff hinj hneeds hperm ha.mem).mpr ha⟩

end Map

end Order

namespace Flow

/-- **Two flows of the same objects**, which may stand at other places: a map that keeps the objects
apart and each of them the same step takes the row of the one to a permutation of that of the
other. -/
structure Rearranged (f g : Flow) : Prop where
  name : f.name = g.name
  goal : f.goal = g.goal
  objects : ∃ e : Fin f.objects.length → Fin g.objects.length,
    (∀ i ∈ f.places, ∀ j ∈ f.places, e i = e j → i = j) ∧
    (∀ i ∈ f.places, g.step (e i) = f.step i) ∧ (f.places.map e).Perm g.places

theorem needs_map {f g : Flow} {e : Fin f.objects.length → Fin g.objects.length}
    (hstep : ∀ i ∈ f.places, g.step (e i) = f.step i) :
    ∀ i ∈ f.places, ∀ j ∈ f.places, g.needs (e i) (e j) = f.needs i j := by
  intro i hi j hj
  unfold needs
  rw [hstep i hi, hstep j hj]

section Rearranged
variable {f g : Flow} (h : f.Rearranged g)
include h

/-- The steps are the same in another order. -/
theorem Rearranged.steps_perm : f.steps.Perm g.steps := by
  obtain ⟨e, -, hstep, hperm⟩ := h.objects
  have hsteps : f.steps = (f.places.map e).map g.step := by
    rw [List.map_map]
    exact List.map_congr_left fun i hi => (hstep i hi).symm
  rw [hsteps]
  exact hperm.map g.step

theorem Rearranged.exists_ring_iff :
    (∃ c, Order.Ring g.needs g.places c) ↔ ∃ c, Order.Ring f.needs f.places c := by
  obtain ⟨e, hinj, hstep, hperm⟩ := h.objects
  exact Order.exists_ring_map_iff hinj (needs_map hstep) hperm

/-- The goals of what is left are the same in another order. -/
theorem Rearranged.goals_perm {c d : Cycle} (hf : f.sorted = .error c)
    (hg : g.sorted = .error d) : c.goals.Perm d.goals := by
  classical
  obtain ⟨e, hinj, hstep, hperm⟩ := h.objects
  have hgoals : (f.places.filter (Order.Stuck f.needs f.places ·)).map (fun i => (f.step i).goal) =
      ((f.places.filter (Order.Stuck f.needs f.places ·)).map e).map fun i => (g.step i).goal := by
    rw [List.map_map]
    refine List.map_congr_left fun i hi => ?_
    exact congrArg Step.goal (hstep i (List.mem_of_mem_filter hi)).symm
  rw [(sorted_eq_error_iff.mp hf).2, (sorted_eq_error_iff.mp hg).2, hgoals]
  exact (Order.filter_stuck_perm hinj (needs_map hstep) hperm).map _

/-- A check that the one passes is passed by the other. -/
theorem holds_of_rearranged (c : Check) : c.Holds f ↔ c.Holds g := by
  cases c with
  | goal =>
    unfold Check.Holds
    rw [h.goal]
  | steps =>
    unfold Check.Holds
    rw [← List.length_pos_iff, ← List.length_pos_iff, h.steps_perm.length_eq]
  | order => exact not_congr h.exists_ring_iff.symm
  | each c => exact forall_congr' fun _ => imp_congr_left h.steps_perm.mem_iff

theorem writes_of_rearranged (v : Scalar) : f.Writes v ↔ g.Writes v :=
  exists_congr fun _ => and_congr_left fun _ => h.steps_perm.mem_iff

theorem reads_of_rearranged (v : Scalar) :
    (∃ s ∈ f.steps, s.requires.contains v = true) ↔
      ∃ s ∈ g.steps, s.requires.contains v = true :=
  exists_congr fun _ => and_congr_left fun _ => h.steps_perm.mem_iff

end Rearranged

/-- A validation passes exactly if all checks hold. -/
theorem validate_passes_iff (s : State) (f : Flow) :
    (s.validate f).1 = .ok () ↔ ∀ c ∈ Check.all, c.Holds f := by
  rw [State.validate_eq_ok_iff, Check.violation?_eq_findSome?]
  exact findSome?_eq_none_iff_forall Check.violation?_eq_none

/-- **The order in which its steps are listed does not make a flow well formed.** Of two flows of
the same objects a validation passes both or neither, and both can be sorted or neither; if they
cannot, then the errors have the same goals, each as often. The two require and provide the same
variables. -/
theorem rearranged_alike {f g : Flow} (h : f.Rearranged g) :
    (∀ s t : State, (s.validate f).1 = .ok () ↔ (t.validate g).1 = .ok ()) ∧
    ((∃ r, f.sorted = .ok r) ↔ ∃ r, g.sorted = .ok r) ∧
    (∀ c d, f.sorted = .error c → g.sorted = .error d → c.goals.Perm d.goals) ∧
    ∀ v, f.requires.contains v = g.requires.contains v ∧
      f.provides.contains v = g.provides.contains v := by
  refine ⟨fun s t => ?_, ?_, fun c d hc hd => h.goals_perm hc hd, fun v => ⟨?_, ?_⟩⟩
  · rw [validate_passes_iff, validate_passes_iff]
    exact forall₂_congr fun c _ => holds_of_rearranged h c
  · rw [exists_sorted_iff, exists_sorted_iff, h.exists_ring_iff]
  · rw [Bool.eq_iff_iff, contains_requires, contains_requires, reads_of_rearranged h,
      writes_of_rearranged h]
  · rw [Bool.eq_iff_iff, contains_provides, contains_provides, writes_of_rearranged h]

/-- A step that reads some variables and writes others. -/
def wired (goal : Char) (reads writes : List Char) : Step where
  goal := some [.char goal]
  requires := reads.map fun c => .text [.char c]
  provides := writes.map fun c => .text [.char c]

/-- Two steps that wait for each other, and a step at two places that waits for one of them. -/
def knot : Flow where
  name := none
  goal := some [.char 'g']
  objects := [wired 'a' ['y'] ['x'], wired 'b' ['x'] ['y'], wired 'c' ['x'] []]
  places := [2, 0, 2, 1]

/-- The same objects, numbered and listed in other orders. -/
def untidyKnot : Flow where
  name := none
  goal := some [.char 'g']
  objects := [wired 'c' ['x'] [], wired 'b' ['x'] ['y'], wired 'a' ['y'] ['x']]
  places := [1, 0, 2, 0]

theorem rearranged_alike_knot : knot.Rearranged untidyKnot ∧
    (∀ s t : State, (s.validate knot).1 = .ok () ↔ (t.validate untidyKnot).1 = .ok ()) ∧
    ((∃ r, knot.sorted = .ok r) ↔ ∃ r, untidyKnot.sorted = .ok r) ∧
    (∀ c d, knot.sorted = .error c → untidyKnot.sorted = .error d → c.goals.Perm d.goals) ∧
    ∀ v, knot.requires.contains v = untidyKnot.requires.contains v ∧
      knot.provides.contains v = untidyKnot.provides.contains v := by
  have h : knot.Rearranged untidyKnot := by
    have hstep : ∀ i : Fin 3, untidyKnot.step i.rev = knot.step i
      | 0 => rfl
      | 1 => rfl
      | 2 => rfl
    exact ⟨rfl, rfl, (Fin.rev : Fin 3 → Fin 3), fun i _ j _ => Fin.rev_inj.mp, fun i _ => hstep i,
      by decide⟩
  exact ⟨h, rearranged_alike h⟩

end Flow

end Stepwise
