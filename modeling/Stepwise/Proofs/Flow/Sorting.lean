import Stepwise.Flow.Basic
import Stepwise.Proofs.Order.Stuck

/-!
# The order of the steps of a flow

The steps of a flow are objects that stand at places; one object waits for another one whose
variables it reads.

* `sorted_least`: the sorted row holds every place once, lets no step stand before another one that
  it depends on, and is the first of all such rows in the lexicographic order of their places.
* `sorted_error_iff`: a flow has no sorted row if and only if some of its objects are a ring, and
  the error lists the goals at the places whose objects wait, directly or not, for a ring.
-/

namespace Stepwise.Flow

theorem sorted_ok_iff {f : Flow} {r : List (Fin f.objects.length)} :
    f.sorted = .ok r ↔ Order.arrange f.needs f.places = .ok r := by
  rw [sorted_eq_arrange_needs]
  cases Order.arrange f.needs f.places with
  | error left => constructor <;> rintro ⟨⟩
  | ok r' => constructor <;> rintro ⟨⟩ <;> rfl

/-- A sorted row is the least valid order of the places. -/
theorem exists_places {f : Flow} {r : List (Fin f.objects.length)} (h : f.sorted = .ok r) :
    ∃ ps, Order.Reads f.places ps r ∧ Order.Valid f.needs f.places ps ∧
      ∀ qs, Order.Valid f.needs f.places qs → ps ≤ qs :=
  Order.arrange_ok (sorted_ok_iff.mp h)

theorem exists_sorted_iff {f : Flow} :
    (∃ r, f.sorted = .ok r) ↔ ¬ ∃ c, Order.Ring f.needs f.places c := by
  simp only [sorted_ok_iff]
  exact Order.arrange_ok_iff

open Classical in
theorem sorted_eq_error_iff {f : Flow} {cycle : Cycle} : f.sorted = .error cycle ↔
    (∃ c, Order.Ring f.needs f.places c) ∧
      cycle.goals = (f.places.filter (Order.Stuck f.needs f.places ·)).map
        fun i => (f.step i).goal := by
  obtain ⟨goals⟩ := cycle
  rw [sorted_eq_arrange_needs]
  constructor
  · intro h
    cases ha : Order.arrange f.needs f.places with
    | ok r => rw [ha] at h; cases h
    | error left =>
      rw [ha] at h
      obtain ⟨hring, rfl⟩ := Order.arrange_error_iff.mp ha
      cases h
      exact ⟨hring, rfl⟩
  · rintro ⟨hring, rfl⟩
    rw [Order.arrange_error_iff.mpr ⟨hring, rfl⟩]
    rfl

/-- **The sorted row is the least valid one.** It has every occurrence of the row of places, and its
places, those of one object taken in their order, are the first of all valid orders of places. -/
theorem sorted_least (f : Flow) {r : List (Fin f.objects.length)} (h : f.sorted = .ok r) :
    r.Perm f.places ∧ ∃ ps, Order.Reads f.places ps r ∧ Order.Valid f.needs f.places ps ∧
      ∀ qs, Order.Valid f.needs f.places qs → ps ≤ qs := by
  obtain ⟨ps, hread, hvalid, hleast⟩ := exists_places h
  exact ⟨hread.perm hvalid.perm, ps, hread, hvalid, hleast⟩

/-- A step that stands at two places and waits for the last one, and a step that reads a variable
which it writes itself. -/
def repeated : Flow where
  name := none
  goal := none
  objects := [{ goal := none, requires := [.text [.char 'a']] },
    { goal := none, requires := [.text [.char 'b']], provides := [.text [.char 'b']] },
    { goal := none, provides := [.text [.char 'a']] }]
  places := [0, 1, 0, 2]

theorem sorted_least_repeated : repeated.sorted = .ok ([1, 2, 0, 0] : List (Fin 3)) ∧
    ([1, 2, 0, 0] : List (Fin 3)).Perm repeated.places ∧
      ∃ ps, Order.Reads repeated.places ps ([1, 2, 0, 0] : List (Fin 3)) ∧
        Order.Valid repeated.needs repeated.places ps ∧
          ∀ qs, Order.Valid repeated.needs repeated.places qs → ps ≤ qs := by
  have h : repeated.sorted = .ok ([1, 2, 0, 0] : List (Fin 3)) :=
    sorted_ok_iff.mpr <| Order.arrange_step (by decide) rfl <| Order.arrange_step (by decide) rfl <|
      Order.arrange_step (by decide) rfl <| Order.arrange_step (by decide) rfl <|
        Order.arrange_of_none rfl
  exact ⟨h, sorted_least repeated h⟩

open Classical in
/-- **A flow without a sorted row has a ring**, and the error lists what waits for one. -/
theorem sorted_error_iff (f : Flow) :
    (∀ cycle, f.sorted = .error cycle ↔ (∃ c, Order.Ring f.needs f.places c) ∧
      cycle.goals = (f.places.filter (Order.Stuck f.needs f.places ·)).map
        fun i => (f.step i).goal) ∧
    ((∃ r, f.sorted = .ok r) ↔ ¬ ∃ c, Order.Ring f.needs f.places c) :=
  ⟨fun _ => sorted_eq_error_iff, exists_sorted_iff⟩

end Stepwise.Flow
