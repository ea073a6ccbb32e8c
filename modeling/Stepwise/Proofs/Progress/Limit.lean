import Stepwise.Proofs.Outcome
import Stepwise.Proofs.Progress.Completion
import Stepwise.Settings

/-!
# Limits on the runs of a step

Three rules say how often a step runs: the settings of an engine tell a limit for each step, a policy
tells whether another run is allowed, and the progress of a step tells whether it is complete. They
are written apart from each other and agree because settings that allow no run are refused.

* `one_le_of_build`, `iterationLimit_whole`: what is known of settings that were built.
* `isComplete_fresh`, `allowsRun_fresh`: what two of the rules say of a step that has been recorded
  some times.
* `runUntilComplete_iff`: how many runs an engine makes that stops where the step is complete.
* `limits_agree`: the three rules give one number.
-/

namespace Stepwise

namespace Completion
variable (c : Completion) (m : ℤ)

theorem mostRuns_mostRuns : c.mostRuns (c.mostRuns m) = c.mostRuns m := by
  unfold mostRuns
  split
  · rfl
  · rfl

variable {m}

theorem one_le_mostRuns (h : 1 ≤ m) : 1 ≤ c.mostRuns m := by
  unfold mostRuns
  split
  · exact h
  · exact Int.le_refl 1

end Completion

namespace EngineSettings
variable {given settings : EngineSettings} {m : ℤ}

theorem maxStepIterations_of_build (h : given.build = .ok settings) :
    settings.maxStepIterations = given.maxStepIterations := by
  obtain ⟨-, -, hr⟩ := bind_eq_ok_iff.mp h
  cases hr
  rfl

/-- Settings under which no step may run once are refused. -/
theorem one_le_of_build (h : given.build = .ok settings)
    (hm : given.maxStepIterations.whole? = some m) : 1 ≤ m := by
  obtain ⟨_, hcheck, -⟩ := bind_eq_ok_iff.mp h
  obtain ⟨few, hfew, hrest⟩ := bind_eq_ok_iff.mp hcheck
  have hless : given.maxStepIterations.lessThan (.int 1) = .ok (decide (m < 1)) :=
    Value.lessThan_of_whole hm rfl
  rw [hless] at hfew
  cases hfew
  by_contra hlt
  have hm1 : m < 1 := by omega
  simp only [hm1, decide_true, if_true] at hrest
  cases hrest

theorem iterationLimit_whole (hm : settings.maxStepIterations.whole? = some m) (step : Step) :
    (settings.iterationLimit step).whole? = some (step.completion.mostRuns m) := by
  unfold iterationLimit Completion.mostRuns
  split
  · exact hm
  · rfl

end EngineSettings

namespace StepProgress

/-! ### A step that was fresh -/

theorem iterations_recordAll_fresh (values : List Value) :
    (recordAll {} values).iterations = .int values.length := by
  by_cases hne : values = []
  · subst hne
    rfl
  · have hcount : ({} : StepProgress).iterations.whole? = some 0 := rfl
    rw [(recordAll_counted hcount hne).1, Int.zero_add]

section Fresh
variable (c : Completion) {limit : Value} {m : ℤ} (hlimit : limit.whole? = some m)
include hlimit

theorem isComplete_fresh (hm : 1 ≤ m) (values : List Value) :
    (recordAll {} values).isComplete c limit = .ok (decide (c.mostRuns m ≤ values.length)) := by
  have hcount : ({} : StepProgress).iterations.whole? = some 0 := rfl
  by_cases hne : values = []
  · subst hne
    have hpos : 1 ≤ c.mostRuns m := c.one_le_mostRuns hm
    have hleft : ¬ (({} : StepProgress).status = .completed ∨
        c.leastRuns ≤ 0 ∧ c.mostRuns m ≤ 0) := by
      rintro (hmark | ⟨-, hzero⟩)
      · cases hmark
      · omega
    have hright : ¬ c.mostRuns m ≤ (([] : List Value).length : ℤ) := by
      rw [List.length_nil]
      omega
    show ({} : StepProgress).isComplete c limit = _
    rw [isComplete_eq hcount hlimit, decide_eq_false hleft, decide_eq_false hright]
  · rw [isComplete_recordAll hcount hlimit (Int.le_refl 0) hne, Int.zero_add]

theorem allowsRun_fresh (values : List Value) :
    c.allowsRun (recordAll {} values).iterations limit =
      .ok (decide (values.length < c.mostRuns m)) := by
  have hcount : (Value.int values.length).whole? = some (values.length : ℤ) := rfl
  rw [iterations_recordAll_fresh]
  unfold Completion.allowsRun Completion.mostRuns
  cases c.isRepeatable with
  | true => exact Value.lessThan_of_whole hcount hlimit
  | false => exact Value.lessThan_of_whole hcount rfl

end Fresh

/-! ### Engines -/

/-- **The runs of an engine at a step**, with what each of them puts out: as long as the step is not
complete it runs once more, and then it is left. -/
inductive RunUntilComplete (c : Completion) (limit : Value) : StepProgress → List Value → Prop
  | leave {s : StepProgress} (complete : s.isComplete c limit = .ok true) :
      RunUntilComplete c limit s []
  | run {s : StepProgress} {v : Value} {values : List Value}
      (incomplete : s.isComplete c limit = .ok false)
      (rest : RunUntilComplete c limit (s.record v).1 values) :
      RunUntilComplete c limit s (v :: values)

/-- Where a step is complete from some number of runs on, an engine makes as many as are missing. -/
theorem runUntilComplete_iff {c : Completion} {limit : Value} {most n : ℤ} {s : StepProgress}
    (hs : ∀ values, (s.recordAll values).isComplete c limit =
      .ok (decide (most ≤ n + values.length))) (hn : n ≤ most) (values : List Value) :
    RunUntilComplete c limit s values ↔ n + values.length = most := by
  have hnow : s.isComplete c limit = .ok (decide (most ≤ n)) := by
    have h := hs []
    rw [List.length_nil, Int.natCast_zero, Int.add_zero] at h
    exact h
  induction values generalizing s n with
  | nil =>
    rw [List.length_nil, Int.natCast_zero, Int.add_zero]
    constructor
    · intro h
      cases h with
      | leave complete =>
        rw [hnow] at complete
        have hle : most ≤ n := by simpa using complete
        omega
    · intro h
      refine .leave ?_
      rw [hnow, decide_eq_true (by omega)]
  | cons v values ih =>
    have hs' : ∀ vs, ((s.record v).1.recordAll vs).isComplete c limit =
        .ok (decide (most ≤ n + 1 + vs.length)) := by
      intro vs
      have hlen : n + ((v :: vs).length : ℤ) = n + 1 + vs.length := by
        rw [List.length_cons]
        omega
      have h := hs (v :: vs)
      rw [hlen] at h
      exact h
    have hnow' : (s.record v).1.isComplete c limit = .ok (decide (most ≤ n + 1)) := by
      have h := hs' []
      rw [List.length_nil, Int.natCast_zero, Int.add_zero] at h
      exact h
    have hlen : n + ((v :: values).length : ℤ) = n + 1 + values.length := by
      rw [List.length_cons]
      omega
    rw [hlen]
    constructor
    · intro h
      cases h with
      | run incomplete rest =>
        rw [hnow] at incomplete
        have hlt : n < most := by simpa using incomplete
        exact (ih hs' (by omega) hnow').mp rest
    · intro h
      have hlt : n < most := by omega
      refine .run ?_ ((ih hs' (by omega) hnow').mpr h)
      rw [hnow, decide_eq_false (by omega)]

/-! ### The three rules -/

/-- **The limits on the runs of a step agree.** For settings that can be built with a whole number as
their limit, and for a step that was fresh and has been recorded any number of times, whatever was
recorded: the step is complete exactly when it was recorded as many times as the settings allow for
it, and exactly when its policy allows no other run; and that is so whether the limit of the settings
is taken or the one that they tell for the step. So an engine that runs the step until it is complete
makes that number of runs, neither more nor fewer. -/
theorem limits_agree {given settings : EngineSettings} {m : ℤ}
    (hbuild : given.build = .ok settings) (hm : given.maxStepIterations.whole? = some m)
    (step : Step) :
    ∃ most : ℤ, (settings.iterationLimit step).whole? = some most ∧
      (∀ values : List Value, (recordAll {} values).iterations = .int values.length ∧
        ∀ limit ∈ [settings.maxStepIterations, settings.iterationLimit step],
          (recordAll {} values).isComplete step.completion limit =
            .ok (decide (most ≤ values.length)) ∧
          step.completion.allowsRun (recordAll {} values).iterations limit =
            .ok (decide (values.length < most))) ∧
      ∀ values : List Value,
        RunUntilComplete step.completion settings.maxStepIterations {} values ↔
          values.length = most := by
  have hpos : 1 ≤ m := EngineSettings.one_le_of_build hbuild hm
  have hmax : settings.maxStepIterations.whole? = some m := by
    rw [EngineSettings.maxStepIterations_of_build hbuild]
    exact hm
  have hlimit := EngineSettings.iterationLimit_whole hmax step
  have hmost : 1 ≤ step.completion.mostRuns m := step.completion.one_le_mostRuns hpos
  refine ⟨step.completion.mostRuns m, hlimit, fun values => ?_, fun values => ?_⟩
  · refine ⟨iterations_recordAll_fresh values, fun limit hmem => ?_⟩
    rcases List.mem_pair.mp hmem with rfl | rfl
    · exact ⟨isComplete_fresh step.completion hmax hpos values,
        allowsRun_fresh step.completion hmax values⟩
    · have hcomplete := isComplete_fresh step.completion hlimit hmost values
      have hallowed := allowsRun_fresh step.completion hlimit values
      rw [Completion.mostRuns_mostRuns] at hcomplete hallowed
      exact ⟨hcomplete, hallowed⟩
  · have hs : ∀ vs : List Value,
        (recordAll {} vs).isComplete step.completion settings.maxStepIterations =
          .ok (decide (step.completion.mostRuns m ≤ 0 + vs.length)) := by
      intro vs
      rw [isComplete_fresh step.completion hmax hpos vs, Int.zero_add]
    rw [runUntilComplete_iff hs (by omega) values, Int.zero_add]

/-- A step that repeats at most three times: behind two runs it is not complete, and behind three it
is. -/
theorem limits_agree_three :
    ∃ settings : EngineSettings,
      EngineSettings.build { maxStepIterations := .int 3 } = .ok settings ∧
      (Value.int 3).whole? = some 3 ∧
      (settings.iterationLimit { goal := none, completion := .zeroOrMore }).whole? = some 3 ∧
      (recordAll {} [.null, .int 1]).isComplete .zeroOrMore settings.maxStepIterations =
        .ok false ∧
      Completion.allowsRun .zeroOrMore (recordAll {} [.null, .int 1, .dict []]).iterations
        settings.maxStepIterations = .ok false ∧
      RunUntilComplete .zeroOrMore settings.maxStepIterations {} [.null, .int 1, .dict []] := by
  have hbuild : EngineSettings.build { maxStepIterations := .int 3 } = .ok
      { excludedPlugins := EngineSettings.asSet [], excludedFunctions := EngineSettings.asSet [],
        maxStepIterations := .int 3 } := rfl
  have hthree : (Value.int 3).whole? = some 3 := rfl
  obtain ⟨most, hlimit, hrecorded, hruns⟩ :=
    limits_agree hbuild hthree { goal := none, completion := .zeroOrMore }
  have hmost : most = 3 := (Option.some.inj hlimit).symm
  subst hmost
  have htwo := (hrecorded [.null, .int 1]).2 _ List.mem_cons_self
  have hall := (hrecorded [.null, .int 1, .dict []]).2 _ List.mem_cons_self
  exact ⟨_, hbuild, hthree, hlimit, htwo.1, hall.2, (hruns _).mpr rfl⟩

end StepProgress

end Stepwise
