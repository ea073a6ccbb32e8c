import Mathlib.Data.Int.Basic
import Stepwise.Progress.Basic

/-!
# Steps that are complete

A step is complete when it is marked so, or when its policy is satisfied and allows no other run.
Recording a run counts it and takes the mark off again, whatever the run put out and whether or not
that can be appended. So what was complete by its mark alone may be incomplete behind a recording.

* `record_counted`, `recordAll_counted`: what one recording, and a row of them, do to the count and
  the mark.
* `isComplete_eq`, `isComplete_recordAll`: when a step is complete, now and behind some recordings.
* `complete_forever_iff`: a step that is complete stays so if and only if it is not marked while its
  policy allows two runs more.
-/

namespace Stepwise

/-! ### Values that count -/

/-- The whole number that a value counts as, truth values counting as one and zero. -/
def Value.whole? : Value → Option ℤ
  | .int i => some i
  | .bool b => some (if b then 1 else 0)
  | _ => none

namespace Value
variable {v w : Value} {i j : ℤ}

theorem position?_of_whole (h : v.whole? = some i) : v.position? = some (.exactly i) := by
  unfold whole? at h
  split at h
  · cases h
    rfl
  · next b =>
    cases h
    cases b <;> rfl
  · cases h

theorem succ_of_whole (h : v.whole? = some i) : v.succ = .ok (.int (i + 1)) := by
  unfold whole? at h
  split at h
  · cases h
    rfl
  · next b =>
    cases h
    cases b <;> rfl
  · cases h

theorem lessThan_of_whole (hv : v.whole? = some i) (hw : w.whole? = some j) :
    v.lessThan w = .ok (decide (i < j)) := by
  unfold lessThan
  rw [position?_of_whole hv, position?_of_whole hw]
  simp only [Position.below, Rat.intCast_lt_intCast]

theorem atLeast_of_whole (hv : v.whole? = some i) (hw : w.whole? = some j) :
    v.atLeast w = .ok (decide (j ≤ i)) := by
  unfold atLeast
  rw [position?_of_whole hv, position?_of_whole hw]
  have hnot : (!decide (i < j)) = decide (j ≤ i) := by
    rw [← decide_not]
    exact decide_eq_decide.mpr Int.not_lt
  simp only [Position.below, Rat.intCast_lt_intCast, hnot]

end Value

namespace StepProgress

/-! ### Recordings -/

theorem appendAll_counted (s : StepProgress) (es : List (Scalar × Value)) :
    (s.appendAll es).1.iterations = s.iterations ∧ (s.appendAll es).1.status = s.status := by
  induction es generalizing s with
  | nil => exact ⟨rfl, rfl⟩
  | cons e es ih =>
    obtain ⟨name, v⟩ := e
    unfold appendAll
    cases appendOutput s.output name v with
    | error f => exact ⟨rfl, rfl⟩
    | ok output => exact ih { s with output }

/-- **A recording counts the run and takes the mark off**, also where what was put out cannot be
appended. -/
theorem record_counted {s : StepProgress} {n : ℤ} (h : s.iterations.whole? = some n)
    (values : Value) :
    (s.record values).1.iterations = .int (n + 1) ∧ (s.record values).1.status = .inProgress := by
  unfold record
  rw [Value.succ_of_whole h]
  dsimp only
  split
  · exact appendAll_counted _ _
  · exact ⟨rfl, rfl⟩

/-- A step after some recordings. -/
def recordAll (s : StepProgress) (values : List Value) : StepProgress :=
  values.foldl (fun s v => (s.record v).1) s

theorem recordAll_counted {s : StepProgress} {n : ℤ} (h : s.iterations.whole? = some n)
    {values : List Value} (hne : values ≠ []) :
    (s.recordAll values).iterations = .int (n + values.length) ∧
      (s.recordAll values).status = .inProgress := by
  induction values generalizing s n with
  | nil => exact absurd rfl hne
  | cons v values ih =>
    obtain ⟨hcount, hstatus⟩ := record_counted h v
    have hsplit : s.recordAll (v :: values) = (s.record v).1.recordAll values := rfl
    rw [hsplit]
    by_cases hrest : values = []
    · subst hrest
      exact ⟨hcount, hstatus⟩
    · have hwhole : (s.record v).1.iterations.whole? = some (n + 1) := by
        rw [hcount]
        rfl
      obtain ⟨hcount', hstatus'⟩ := ih hwhole hrest
      refine ⟨?_, hstatus'⟩
      have hsum : n + 1 + (values.length : ℤ) = n + ((v :: values).length : ℤ) := by
        rw [List.length_cons]
        omega
      rw [hcount', hsum]

/-! ### When a step is complete -/

section Complete
variable {s : StepProgress} {c : Completion} {limit : Value} {n m : ℤ}
  (hcount : s.iterations.whole? = some n) (hlimit : limit.whole? = some m)
include hcount hlimit

theorem isComplete_eq : s.isComplete c limit =
    .ok (decide (s.status = .completed ∨ c.leastRuns ≤ n ∧ c.mostRuns m ≤ n)) := by
  have hleast : c.satisfies s.iterations = .ok (decide (c.leastRuns ≤ n)) :=
    Value.atLeast_of_whole hcount rfl
  have hmost : c.allowsRun s.iterations limit = .ok (decide (n < c.mostRuns m)) := by
    unfold Completion.allowsRun Completion.mostRuns
    cases c.isRepeatable with
    | true => exact Value.lessThan_of_whole hcount hlimit
    | false => exact Value.lessThan_of_whole hcount rfl
  unfold isComplete
  rw [hleast, hmost]
  by_cases hmark : s.status = .completed
  · simp [hmark, pure, Except.pure]
  · by_cases hl : c.leastRuns ≤ n
    · have hnot : (!decide (n < c.mostRuns m)) = decide (c.mostRuns m ≤ n) := by
        rw [← decide_not]
        exact decide_eq_decide.mpr Int.not_lt
      simp [hmark, hl, hnot, bind, Except.bind, pure, Except.pure]
    · simp [hmark, hl, bind, Except.bind, pure, Except.pure]

theorem isComplete_recordAll (hn : 0 ≤ n) {values : List Value} (hne : values ≠ []) :
    (s.recordAll values).isComplete c limit =
      .ok (decide (c.mostRuns m ≤ n + values.length)) := by
  obtain ⟨hcount', hstatus⟩ := recordAll_counted hcount hne
  have hwhole : (s.recordAll values).iterations.whole? = some (n + values.length) := by
    rw [hcount']
    rfl
  have hpos : 0 < values.length := List.length_pos_iff.mpr hne
  have hleast : c.leastRuns ≤ n + values.length := by
    unfold Completion.leastRuns
    split
    · omega
    · omega
  have hmark : (s.recordAll values).status ≠ .completed := by
    rw [hstatus]
    decide
  rw [isComplete_eq hwhole hlimit]
  simp only [hmark, hleast, false_or, true_and]

end Complete

/-- **When completion is for ever.** For a step whose count of runs is a natural number and a limit
that is a whole number, it is told for every policy whether the step is complete, also behind any
recordings: from the first one on, exactly when no other run is allowed. So a step that is complete
stays complete behind all recordings if and only if it is not marked as completed while its policy
is one of those that repeat and the limit is two runs away or more. -/
theorem complete_forever_iff {s : StepProgress} {limit : Value} {n m : ℤ}
    (hcount : s.iterations.whole? = some n) (hn : 0 ≤ n) (hlimit : limit.whole? = some m)
    (c : Completion) :
    (s.isComplete c limit = .ok true →
      ((∀ values, (s.recordAll values).isComplete c limit = .ok true) ↔
        ¬ (s.status = .completed ∧ c.isRepeatable = true ∧ n + 1 < m))) ∧
    ∀ values, values ≠ [] → (s.recordAll values).isComplete c limit =
      .ok (decide (c.mostRuns m ≤ n + values.length)) := by
  have hrecorded : ∀ values : List Value, values ≠ [] →
      (s.recordAll values).isComplete c limit =
        .ok (decide (c.mostRuns m ≤ n + values.length)) :=
    fun values hne => isComplete_recordAll hcount hlimit hn hne
  refine ⟨fun hcomplete => ⟨?_, ?_⟩, hrecorded⟩
  · rintro hforever ⟨-, hrepeat, hlt⟩
    have hone := hforever [.null]
    have hmost : c.mostRuns m = m := by
      unfold Completion.mostRuns
      rw [if_pos hrepeat]
    rw [hrecorded [.null] (by simp), hmost] at hone
    have hle : m ≤ n + 1 := by simpa using hone
    omega
  · intro hnot values
    by_cases hne : values = []
    · subst hne
      exact hcomplete
    have hpos : 0 < values.length := List.length_pos_iff.mpr hne
    have hmost : c.mostRuns m ≤ n + values.length := by
      by_cases hmark : s.status = .completed
      · unfold Completion.mostRuns
        split
        · next hrepeat =>
          have hge : ¬ n + 1 < m := fun hlt => hnot ⟨hmark, hrepeat, hlt⟩
          omega
        · omega
      · rw [isComplete_eq hcount hlimit] at hcomplete
        have hleast : c.leastRuns ≤ n ∧ c.mostRuns m ≤ n := by simpa [hmark] using hcomplete
        omega
    rw [hrecorded values hne]
    simp only [hmost, decide_true]

/-- A step that has been marked as completed before it ran. -/
def markedEarly : StepProgress := { status := .completed }

theorem complete_forever_marked : markedEarly.iterations.whole? = some 0 ∧ (0 : ℤ) ≤ 0 ∧
    (Value.int 1).whole? = some 1 ∧
    markedEarly.isComplete .atLeastOnce (.int 1) = .ok true ∧
    ∀ values, (markedEarly.recordAll values).isComplete .atLeastOnce (.int 1) = .ok true := by
  have hcount : markedEarly.iterations.whole? = some 0 := rfl
  have hlimit : (Value.int 1).whole? = some 1 := rfl
  have hcomplete : markedEarly.isComplete .atLeastOnce (.int 1) = .ok true := rfl
  have hforever :=
    (complete_forever_iff hcount (Int.le_refl 0) hlimit .atLeastOnce).1 hcomplete
  exact ⟨hcount, Int.le_refl 0, hlimit, hcomplete, hforever.mpr (by decide)⟩

/-- The mark is lost with the next run, though it says that no run is needed. -/
theorem not_complete_recorded : markedEarly.isComplete .atLeastOnce (.int 10) = .ok true ∧
    (markedEarly.recordAll [.dict [(.text "x", .int 1)]]).isComplete .atLeastOnce (.int 10) =
      .ok false := by
  have hcount : markedEarly.iterations.whole? = some 0 := rfl
  have hlimit : (Value.int 10).whole? = some 10 := rfl
  refine ⟨rfl, ?_⟩
  rw [isComplete_recordAll hcount hlimit (Int.le_refl 0) (List.cons_ne_nil _ _)]
  rfl

end StepProgress

end Stepwise
