import Stepwise.Proofs.Outcome
import Stepwise.Proofs.Flow.Sorting
import Stepwise.Proofs.Session.Validation

/-!
# Well-formed flows

A flow is well formed if it passes all checks: its goal says something, it has steps, no steps are a
ring, and each step passes three checks of its own. The checks have an order, so have the steps, and
so have the parts of a reference; what is reported is in each case the first one that fails.

* `ReferencePart.Holds`, `StepCheck.Holds`, `Check.Holds`: what is asked for; `StepCheck.Reports`,
  `Check.Reports`: the text of the error, and its cause.
* `validate_first_violation`: a validation, under any backend, passes exactly the well-formed flows,
  and of all others it says what the first failing check says.
-/

namespace Stepwise

/-! ### Texts -/

/-- A text that is there and says something. -/
def Telling (t : Option Text) : Prop := ∃ u, t = some u ∧ ¬ u.AllBlank

theorem missingOrBlank_eq_true {t : Option Text} : missingOrBlank t = true ↔ ¬ Telling t := by
  cases t <;> simp [missingOrBlank, Telling]

/-! ### References -/

/-- What is looked at in a reference. -/
inductive ReferencePart where
  | name
  | requires
  | provides
  | plugins

namespace ReferencePart

/-- The parts in the order in which they are looked at. -/
def all : List ReferencePart := [name, requires, provides, plugins]

/-- A reference names its flow and has nothing of its own. -/
def Holds (s : Step) (flowName : Option Text) : ReferencePart → Prop
  | name => Telling flowName
  | requires => s.requires = []
  | provides => s.provides = []
  | plugins => s.plugins = none ∨ s.plugins = some []

/-- What is said about the part of a reference. -/
def text : ReferencePart → String
  | name => "Reference flow step must name the flow it references."
  | requires => "Reference flow step cannot have any direct requirements."
  | provides => "Reference flow step cannot have any direct provides."
  | plugins => "Reference flow step cannot have any direct plugins."

/-- The violation of a part. -/
def violation? (s : Step) (flowName : Option Text) : ReferencePart → Option Violation
  | name => if missingOrBlank flowName then some .unnamedReference else none
  | requires => if s.requires.isEmpty then none else some .referenceRequires
  | provides => if s.provides.isEmpty then none else some .referenceProvides
  | plugins => if (s.plugins.getD []).isEmpty then none else some .referencePlugins

variable {s : Step} {flowName : Option Text}

theorem violation?_eq_none (part : ReferencePart) :
    part.violation? s flowName = none ↔ part.Holds s flowName := by
  cases part with
  | name =>
    unfold violation? Holds
    rw [← not_iff_not, ← missingOrBlank_eq_true]
    simp
  | requires => simp [violation?, Holds]
  | provides => simp [violation?, Holds]
  | plugins => cases h : s.plugins <;> simp [violation?, Holds, h]

theorem of_violation?_eq_some {part : ReferencePart} {v : Violation}
    (h : part.violation? s flowName = some v) : v.message = part.text ∧ v.cause? = none := by
  cases part <;> simp only [violation?, ite_eq_iff, Option.some.injEq, reduceCtorEq, and_false,
    false_or, or_false] at h <;> obtain ⟨-, rfl⟩ := h <;> exact ⟨rfl, rfl⟩

theorem referenceViolation?_eq (h : s.kind = .reference flowName) :
    s.referenceViolation? = all.findSome? (violation? s flowName) := by
  unfold Step.referenceViolation?
  rw [h]
  simp only [all, List.findSome?_cons, List.findSome?_nil, violation?]
  cases missingOrBlank flowName <;> cases s.requires.isEmpty <;> cases s.provides.isEmpty <;>
    cases (s.plugins.getD []).isEmpty <;> rfl

end ReferencePart

/-! ### Checks of a step -/

/-- A check that is made of each step. -/
inductive StepCheck where
  | reference
  | message
  | passthrough

namespace StepCheck

/-- What a check asks of a step. -/
def Holds (s : Step) : StepCheck → Prop
  | reference => ∀ flowName, s.kind = .reference flowName →
      ∀ part ∈ ReferencePart.all, part.Holds s flowName
  | message => s.completion = .optional ∨ s.completion = .zeroOrMore →
      ∃ t, s.startingMessage = some t ∧ t ≠ []
  | passthrough => s.passthrough ≠ [] →
      s.completion = .atLeastOnce ∨ s.completion = .zeroOrMore

/-- **What a check says about a step that it refuses**: of a reference the first part at fault. -/
inductive Reports (s : Step) : StepCheck → Text → Prop
  | reference {flowName : Option Text} {part : ReferencePart}
      (kind : s.kind = .reference flowName)
      (first : FirstWithout (ReferencePart.Holds s flowName) ReferencePart.all part) :
      Reports s reference part.text
  | message (fails : ¬ Holds s message) :
      Reports s message ("Missing starting message for step=" ++ plainText s.goal ++
        " with completion type=" ++ s.completion.spelling)
  | passthrough (fails : ¬ Holds s passthrough) :
      Reports s passthrough ("step=" ++ plainText s.goal ++ " with completion type=" ++
        s.completion.spelling ++ " cannot have passthrough variables as that is only applicable " ++
        "for the AtLeastOnce or ZeroOrMore completion types")

/-- The violation that a check finds in a step. -/
def violation? (s : Step) : StepCheck → Option Violation
  | reference => s.referenceViolation?
  | message => s.messageViolation?
  | passthrough => s.passthroughViolation?

variable {s : Step}

theorem referenceViolation?_of_plain (h : ∀ flowName, s.kind ≠ .reference flowName) :
    s.referenceViolation? = none := by
  unfold Step.referenceViolation?
  cases hkind : s.kind with
  | plain => rfl
  | reference flowName => exact absurd hkind (h flowName)

theorem requiresStartingMessage_iff (c : Completion) :
    c.requiresStartingMessage = true ↔ c = .optional ∨ c = .zeroOrMore := by
  cases c <;> decide

theorem allowsPassthrough_iff (c : Completion) :
    c.allowsPassthrough = true ↔ c = .atLeastOnce ∨ c = .zeroOrMore := by
  cases c <;> decide

theorem messageViolation?_eq : s.messageViolation? =
    some (.noStartingMessage s.goal s.completion) ∧ ¬ message.Holds s ∨
    s.messageViolation? = none ∧ message.Holds s := by
  unfold Step.messageViolation? Holds
  rw [← requiresStartingMessage_iff]
  cases s.completion.requiresStartingMessage <;> cases s.startingMessage <;> simp [em]

theorem passthroughViolation?_eq : s.passthroughViolation? =
    some (.passthrough s.goal s.completion) ∧ ¬ passthrough.Holds s ∨
    s.passthroughViolation? = none ∧ passthrough.Holds s := by
  unfold Step.passthroughViolation? Holds
  rw [← allowsPassthrough_iff]
  cases s.completion.allowsPassthrough <;> cases s.passthrough <;> simp

theorem reference_holds_iff {flowName : Option Text} (h : s.kind = .reference flowName) :
    reference.Holds s ↔ ∀ part ∈ ReferencePart.all, part.Holds s flowName := by
  constructor
  · intro hall
    exact hall flowName h
  · intro hall flowName' h'
    rw [h] at h'
    cases h'
    exact hall

theorem violation?_eq_none (c : StepCheck) : c.violation? s = none ↔ c.Holds s := by
  cases c with
  | reference =>
    cases hkind : s.kind with
    | plain =>
      have hplain : ∀ flowName, s.kind ≠ .reference flowName := by simp [hkind]
      exact iff_of_true (referenceViolation?_of_plain hplain) fun flowName h =>
        absurd h (hplain flowName)
    | reference flowName =>
      rw [reference_holds_iff hkind, violation?, ReferencePart.referenceViolation?_eq hkind]
      exact findSome?_eq_none_iff_forall ReferencePart.violation?_eq_none
  | message =>
    rcases messageViolation?_eq (s := s) with ⟨hv, hnot⟩ | ⟨hv, hholds⟩
    · simp [violation?, hv, hnot]
    · simp [violation?, hv, hholds]
  | passthrough =>
    rcases passthroughViolation?_eq (s := s) with ⟨hv, hnot⟩ | ⟨hv, hholds⟩
    · simp [violation?, hv, hnot]
    · simp [violation?, hv, hholds]

theorem reports_of_violation? {c : StepCheck} {v : Violation} (h : c.violation? s = some v) :
    c.Reports s v.message ∧ v.cause? = none := by
  cases c with
  | reference =>
    cases hkind : s.kind with
    | plain => rw [violation?, referenceViolation?_of_plain (by simp [hkind])] at h; cases h
    | reference flowName =>
      rw [violation?, ReferencePart.referenceViolation?_eq hkind,
        findSome?_eq_some_iff_first ReferencePart.violation?_eq_none] at h
      obtain ⟨part, hfirst, hpart⟩ := h
      obtain ⟨hmessage, hcause⟩ := ReferencePart.of_violation?_eq_some hpart
      exact ⟨hmessage ▸ .reference hkind hfirst, hcause⟩
  | message =>
    rcases messageViolation?_eq (s := s) with ⟨hv, hnot⟩ | ⟨hv, -⟩
    · rw [violation?, hv] at h
      cases h
      exact ⟨.message hnot, rfl⟩
    · rw [violation?, hv] at h
      cases h
  | passthrough =>
    rcases passthroughViolation?_eq (s := s) with ⟨hv, hnot⟩ | ⟨hv, -⟩
    · rw [violation?, hv] at h
      cases h
      exact ⟨.passthrough hnot, rfl⟩
    · rw [violation?, hv] at h
      cases h

theorem Reports.unique {c : StepCheck} {text text' : Text} (h : c.Reports s text)
    (h' : c.Reports s text') : text = text' := by
  cases h with
  | reference kind first =>
    cases h' with
    | reference kind' first' =>
      rw [kind] at kind'
      cases kind'
      rw [first.unique first']
  | message => cases h'; rfl
  | passthrough => cases h'; rfl

end StepCheck

/-! ### Checks of a flow -/

/-- A check of a flow. -/
inductive Check where
  | goal
  | steps
  | order
  | each (c : StepCheck)

namespace Check

/-- The checks in their order. -/
def all : List Check :=
  [goal, steps, order, each .reference, each .message, each .passthrough]

/-- What a check asks of a flow. -/
def Holds (f : Flow) : Check → Prop
  | goal => Telling f.goal
  | steps => f.steps ≠ []
  | order => ¬ ∃ c, Order.Ring f.needs f.places c
  | each c => ∀ s ∈ f.steps, c.Holds s

/-- **What a check says about a flow that it refuses**: a text, and the cycle that is the cause of the
error, if one is. A check of the steps speaks about the first step that it refuses. -/
inductive Reports (f : Flow) : Check → Text → Option Cycle → Prop
  | goal : Reports f goal ("Flow '" ++ plainText f.name ++ "' must have a goal.") none
  | steps : Reports f steps "Flow must contain at least one flow step." none
  | order {cycle : Cycle} (unsorted : f.sorted = .error cycle) :
      Reports f order "Flow steps must be a partial order set." (some cycle)
  | each {c : StepCheck} {s : Step} {text : Text}
      (first : FirstWithout (fun s => c.Holds s) f.steps s) (reports : c.Reports s text) :
      Reports f (each c) text none

/-- The violation that a check finds. -/
def violation? (f : Flow) : Check → Option Violation
  | goal => if missingOrBlank f.goal then some (.noGoal f.name) else none
  | steps => if f.steps.isEmpty then some .noSteps else none
  | order => match f.sorted with
    | .error cycle => some (.notOrdered cycle)
    | .ok _ => none
  | each c => f.steps.findSome? fun s => c.violation? s

variable {f : Flow}

theorem violation?_eq_findSome? : f.violation? = all.findSome? (violation? f) := by
  have hlast : ∀ o : Option Violation, (o <|> none) = o := orElse_failure
  simp only [all, findSome?_cons_eq_orElse, List.findSome?_nil, hlast]
  rfl

theorem violation?_eq_none (c : Check) : c.violation? f = none ↔ c.Holds f := by
  cases c with
  | goal =>
    unfold violation? Holds
    rw [← not_iff_not, ← missingOrBlank_eq_true]
    simp
  | steps => simp [violation?, Holds]
  | order =>
    unfold violation? Holds
    rw [← Flow.exists_sorted_iff]
    cases f.sorted <;> simp
  | each c => exact findSome?_eq_none_iff_forall fun s => c.violation?_eq_none

theorem reports_of_violation? {c : Check} {v : Violation} (h : c.violation? f = some v) :
    c.Reports f v.message v.cause? := by
  cases c with
  | goal =>
    rw [violation?] at h
    split_ifs at h
    cases h
    exact .goal
  | steps =>
    rw [violation?] at h
    split_ifs at h
    cases h
    exact .steps
  | order =>
    rw [violation?] at h
    cases hsorted : f.sorted with
    | error cycle =>
      rw [hsorted] at h
      cases h
      exact .order hsorted
    | ok r => rw [hsorted] at h; cases h
  | each c =>
    obtain ⟨s, hfirst, hs⟩ :=
      (findSome?_eq_some_iff_first fun s => c.violation?_eq_none).mp h
    obtain ⟨hreports, hcause⟩ := StepCheck.reports_of_violation? hs
    exact hcause ▸ .each hfirst hreports

theorem Reports.unique {c : Check} {text text' : Text} {cause cause' : Option Cycle}
    (h : c.Reports f text cause) (h' : c.Reports f text' cause') : text = text' ∧ cause = cause' := by
  cases h with
  | goal => cases h'; exact ⟨rfl, rfl⟩
  | steps => cases h'; exact ⟨rfl, rfl⟩
  | order unsorted =>
    cases h' with
    | order unsorted' =>
      rw [unsorted] at unsorted'
      cases unsorted'
      exact ⟨rfl, rfl⟩
  | each first reports =>
    cases h' with
    | each first' reports' =>
      cases first.unique first'
      exact ⟨reports.unique reports', rfl⟩

theorem Reports.eq_order {c : Check} {text : Text} {cycle : Cycle}
    (h : c.Reports f text (some cycle)) : c = .order := by
  cases h
  rfl

theorem Reports.exists_cycle {text : Text} {cause : Option Cycle}
    (h : Check.order.Reports f text cause) : ∃ cycle, cause = some cycle := by
  cases h
  exact ⟨_, rfl⟩

theorem order_first_iff : FirstWithout (Holds f) all order ↔
    goal.Holds f ∧ steps.Holds f ∧ ¬ order.Holds f := by
  simp [all, firstWithout_cons, not_firstWithout_nil]

/-- A check that fails finds a violation, and the violation says what the check says. -/
theorem exists_violation?_iff {c : Check} {text : Text} {cause : Option Cycle}
    (h : ¬ c.Holds f) : (∃ v, c.violation? f = some v ∧ v.message = text ∧ v.cause? = cause) ↔
      c.Reports f text cause := by
  constructor
  · rintro ⟨v, hv, rfl, rfl⟩
    exact reports_of_violation? hv
  · intro hreports
    rw [← violation?_eq_none] at h
    obtain ⟨v, hv⟩ := Option.ne_none_iff_exists'.mp h
    obtain ⟨htext, hcause⟩ := (reports_of_violation? hv).unique hreports
    exact ⟨v, hv, htext, hcause⟩

end Check

/-! ### Validation -/

namespace State

theorem validate_eq_ok_iff (s : State) (f : Flow) :
    (s.validate f).1 = .ok () ↔ f.violation? = none := by
  rw [validate_fst, Flow.check]
  cases f.violation? <;> simp

theorem validate_eq_error_iff (s : State) (f : Flow) {v : Violation} :
    (s.validate f).1 = .error v ↔ f.violation? = some v := by
  rw [validate_fst, Flow.check]
  cases f.violation? <;> simp

/-- **A validation passes exactly the well-formed flows, and reports the first check that fails.** It
passes if all checks hold, in every state and under every backend. Otherwise the text of the error and
its cause are what the first failing check reports. A cycle is the only cause there is: an error has one
exactly if the order is what fails first. -/
theorem validate_first_violation (s : State) (f : Flow) :
    ((s.validate f).1 = .ok () ↔ ∀ c ∈ Check.all, c.Holds f) ∧
    (∀ text cause, (∃ v, (s.validate f).1 = .error v ∧ v.message = text ∧ v.cause? = cause) ↔
      ∃ c, FirstWithout (Check.Holds f) Check.all c ∧ c.Reports f text cause) ∧
    ∀ v, (s.validate f).1 = .error v → (v.cause? ≠ none ↔
      Check.goal.Holds f ∧ Check.steps.Holds f ∧ ¬ Check.order.Holds f) := by
  have hsearch : ∀ v, f.violation? = some v ↔
      ∃ c, FirstWithout (Check.Holds f) Check.all c ∧ c.violation? f = some v := fun v => by
    rw [Check.violation?_eq_findSome?]
    exact findSome?_eq_some_iff_first Check.violation?_eq_none
  refine ⟨?_, fun text cause => ?_, fun v hv => ?_⟩
  · rw [validate_eq_ok_iff, Check.violation?_eq_findSome?]
    exact findSome?_eq_none_iff_forall Check.violation?_eq_none
  · simp only [validate_eq_error_iff, hsearch]
    constructor
    · rintro ⟨v, ⟨c, hfirst, hv⟩, rfl, rfl⟩
      exact ⟨c, hfirst, Check.reports_of_violation? hv⟩
    · rintro ⟨c, hfirst, hreports⟩
      obtain ⟨v, hv, htext, hcause⟩ := (Check.exists_violation?_iff hfirst.not).mpr hreports
      exact ⟨v, ⟨c, hfirst, hv⟩, htext, hcause⟩
  · rw [validate_eq_error_iff, hsearch] at hv
    obtain ⟨c, hfirst, hc⟩ := hv
    have hreports := Check.reports_of_violation? hc
    rw [← Check.order_first_iff]
    constructor
    · intro hcause
      cases hv : v.cause? with
      | none => exact absurd hv hcause
      | some cycle =>
        rw [hv] at hreports
        rwa [hreports.eq_order] at hfirst
    · intro horder
      obtain rfl := hfirst.unique horder
      obtain ⟨cycle, hcycle⟩ := hreports.exists_cycle
      rw [hcycle]
      exact Option.some_ne_none cycle

/-- A step that may be skipped and has no starting message. -/
def silent (reads : List Scalar) : Step where
  goal := some "a"
  requires := reads
  provides := [.text "x"]
  completion := .optional

/-- A step that stands for a flow and does not say for which one. -/
def nameless : Step where
  goal := some "b"
  requires := [.text "x"]
  provides := [.text "y"]
  kind := .reference (some " ")

/-- A flow of both, which wait for each other if the first one reads `y`. -/
def tangled (goal : Text) (reads : List Scalar) : Flow :=
  .ofSteps (some "f") (some goal) [silent reads, nameless]

theorem sorted_tangled (goal : Text) :
    (tangled goal [.text "y"]).sorted = .error ⟨[some "a", some "b"]⟩ := by
  rw [Flow.sorted_eq_arrange_needs, Order.arrange_of_none rfl]
  rfl

theorem validate_first_violation_tangled :
    (∃ v, (({} : State).validate (tangled " " [.text "y"])).1 = .error v ∧
      v.message = "Flow 'f' must have a goal." ∧ v.cause? = none) ∧
    (∃ v, (({} : State).validate (tangled "g" [.text "y"])).1 = .error v ∧
      v.message = "Flow steps must be a partial order set." ∧
      v.cause? = some ⟨[some "a", some "b"]⟩) ∧
    ∃ v, (({} : State).validate (tangled "g" [])).1 = .error v ∧
      v.message = "Reference flow step must name the flow it references." ∧ v.cause? = none := by
  have hblank : ∀ t : Text, t.AllBlank → ¬Telling (some t) := by
    rintro t ht ⟨u, hu, hnot⟩
    cases hu
    exact hnot ht
  have hgoal : Telling (some ("g" : Text)) := ⟨"g", rfl, by decide⟩
  have hsteps : ∀ goal reads, (tangled goal reads).steps ≠ [] := fun _ _ => List.cons_ne_nil _ _
  refine ⟨?_, ?_, ?_⟩
  · refine ((validate_first_violation {} (tangled " " [.text "y"])).2.1 _ _).mpr
      ⟨.goal, firstWithout_cons.mpr (.inl ⟨hblank _ (by decide), rfl⟩), ?_⟩
    exact .goal
  · refine ((validate_first_violation {} (tangled "g" [.text "y"])).2.1 _ _).mpr
      ⟨.order, Check.order_first_iff.mpr ⟨hgoal, hsteps _ _, ?_⟩, .order (sorted_tangled "g")⟩
    exact not_not_intro (Flow.sorted_eq_error_iff.mp (sorted_tangled "g")).1
  · have hsorted : (tangled "g" []).sorted = .ok ([0, 1] : List (Fin 2)) :=
      Flow.sorted_ok_iff.mpr <| Order.arrange_step (by decide) rfl <|
        Order.arrange_step (by decide) rfl <| Order.arrange_of_none rfl
    have horder : Check.order.Holds (tangled "g" []) := Flow.exists_sorted_iff.mp ⟨_, hsorted⟩
    -- the first step lacks a message, but the references are looked at before the messages
    have hplain : StepCheck.reference.Holds (silent []) := nofun
    have hname : ¬ReferencePart.name.Holds nameless (some " ") :=
      hblank _ (by decide)
    have hreference : ¬StepCheck.reference.Holds nameless := fun hall =>
      hname (hall _ rfl .name List.mem_cons_self)
    have hfirst : FirstWithout (StepCheck.Holds · .reference) (tangled "g" []).steps nameless :=
      firstWithout_cons.mpr (.inr ⟨hplain, firstWithout_cons.mpr (.inl ⟨hreference, rfl⟩)⟩)
    have hfails : ¬(Check.each .reference).Holds (tangled "g" []) := fun hall =>
      hreference (hall _ hfirst.mem)
    refine ((validate_first_violation {} (tangled "g" [])).2.1 _ _).mpr ⟨.each .reference, ?_, ?_⟩
    · exact firstWithout_cons.mpr (.inr ⟨hgoal, firstWithout_cons.mpr (.inr ⟨hsteps _ _,
        firstWithout_cons.mpr (.inr ⟨horder, firstWithout_cons.mpr (.inl ⟨hfails, rfl⟩)⟩)⟩)⟩)
    · exact .each hfirst (.reference rfl (firstWithout_cons.mpr (.inl ⟨hname, rfl⟩)))

end State

end Stepwise
