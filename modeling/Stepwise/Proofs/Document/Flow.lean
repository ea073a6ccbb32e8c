import Stepwise.Proofs.Document.Step

/-!
# Flows in documents

What a value of a JSON text has to look like to be a flow, and what becomes of every other value.

* `DescribesFlow`: a value describes a flow by its name, its goal and the steps in their order.
* `flow_described`: the flow that a value describes is what is read from it, and whatever describes
  none is refused with a validation error, apart from what `UnreportableFlow` tells.
* `unreportableFlow_policyDocument`, `not_validated_long`: in place of a policy any value that cannot be
  shown is refused in another way, as a whole number with too many digits is.
-/

namespace Stepwise.Document

open Value

/-- A value describes a step if it is a mapping that does. -/
def IsStep (v : Value) (s : Step) : Prop := ∃ es, v = .dict es ∧ DescribesStep es s

/-- **A value describes a flow**: it is a mapping with the steps of the flow in their order. -/
inductive DescribesFlow : Value → Flow → Prop
  | mapping {es : Entries Scalar Value} {name goal : Option Text} {items : List Value}
      {steps : List Step} (named : ReadsText (some []) (some []) (field? es "name") name)
      (aimed : ReadsText (some []) (some []) (field? es "goal") goal)
      (listed : ReadsSteps (field? es "steps") items) (each : List.Forall₂ IsStep items steps) :
      DescribesFlow (.dict es) (Flow.ofSteps name goal steps)

/-- **A flow that is refused without a validation error**: the first value among its steps that
describes none is refused in that way, and nothing that is read before it is refused. -/
inductive UnreportableFlow [Limits] : Value → Prop
  | step {es ds : Entries Scalar Value} {items : List Value}
      (named : ∃ t, ReadsText none none (field? es "name") t)
      (aimed : ∃ t, ReadsText none none (field? es "goal") t)
      (listed : ReadsSteps (field? es "steps") items)
      (first : FirstWithout (fun v => ∃ s, IsStep v s) items (.dict ds))
      (refused : Unreportable ds) : UnreportableFlow (.dict es)

theorem step_of_not_mapping [Limits] {v : Value} (hv : v.IsJson) (hdict : ∀ es, v ≠ .dict es) :
    step v = .error (.notMapping "Flow step" v.typeName) := by
  rcases hv with _ | _ | @⟨es⟩
  · rfl
  · rfl
  · exact absurd rfl (hdict es)

theorem flow_of_not_mapping [Limits] {v : Value} (hv : v.IsJson) (hdict : ∀ es, v ≠ .dict es) :
    flow v = .error (.notMapping "Flow definition" v.typeName) := by
  rcases hv with _ | _ | @⟨es⟩
  · rfl
  · rfl
  · exact absurd rfl (hdict es)

theorem step_eq_ok_iff_isStep [Limits] {v : Value} (hv : v.IsJson) {s : Step} :
    step v = .ok s ↔ IsStep v s := by
  by_cases hdict : ∃ es, v = .dict es
  · obtain ⟨es, rfl⟩ := hdict
    rw [step_eq_ok_iff hv]
    constructor
    · intro h
      exact ⟨es, rfl, h⟩
    · rintro ⟨_, ⟨⟩, h⟩
      exact h
  · rw [step_of_not_mapping hv (not_exists.mp hdict)]
    exact iff_of_false (fun h => by cases h) fun ⟨es, hes, _⟩ => hdict ⟨es, hes⟩

theorem step_not_isValidation_iff [Limits] {v : Value} (hv : v.IsJson) :
    (∃ e, step v = .error e ∧ e.isValidation = false) ↔ ∃ ds, v = .dict ds ∧ Unreportable ds := by
  constructor
  · rintro ⟨e, he, hval⟩
    by_cases hdict : ∃ es, v = .dict es
    · obtain ⟨es, rfl⟩ := hdict
      exact ⟨es, rfl, unreportable_of_step hv he hval⟩
    · rw [step_of_not_mapping hv (not_exists.mp hdict)] at he
      cases he
      cases hval
  · rintro ⟨ds, rfl, h⟩
    exact step_of_unreportable hv h

/-! ### The steps of a flow -/

theorem mapM_step_eq_ok_iff [Limits] {items : List Value} (hitems : ∀ x ∈ items, x.IsJson)
    {steps : List Step} : items.mapM step = .ok steps ↔ List.Forall₂ IsStep items steps := by
  rw [mapM_eq_ok_iff]
  induction items generalizing steps with
  | nil => simp only [List.forall₂_nil_left_iff]
  | cons x items ih =>
    obtain ⟨hx, hitems⟩ := List.forall_mem_cons.mp hitems
    simp only [List.forall₂_cons_left_iff, step_eq_ok_iff_isStep hx, ih hitems]

theorem mapM_step_eq_error_iff [Limits] {items : List Value} (hitems : ∀ x ∈ items, x.IsJson) {e : Fault} :
    items.mapM step = .error e ↔
      ∃ x, FirstWithout (fun v => ∃ s, IsStep v s) items x ∧ step x = .error e := by
  rw [mapM_eq_error_iff_first]
  refine exists_congr fun x => and_congr_left' ?_
  exact FirstWithout.congr fun v hv => exists_congr fun s => step_eq_ok_iff_isStep (hitems v hv)

theorem isValidation_of_stepsField {es : Entries Scalar Value} {e : Fault}
    (h : stepsField es = .error e) :
    e.isValidation = true := by
  unfold stepsField at h
  split at h
  · cases h
  · split at h
    · split at h
      · cases h
      · cases h
        rfl
    · cases h

section
variable {es : Entries Scalar Value} (hes : (dict es).IsJson)
include hes

theorem isJson_of_reads_steps {items : List Value} (h : ReadsSteps (field? es "steps") items) :
    ∀ x ∈ items, x.IsJson := by
  rcases hfield : field? es "steps" with _ | v
  · rw [hfield] at h
    rcases h
    simp
  · have hv := isJson_of_field? hes hfield
    rw [hfield] at h
    rcases h with _ | _ | xs
    · simp
    · rcases hv with _ | hxs | _
      exact hxs

theorem flow_eq_ok_iff [Limits] {f : Flow} : flow (.dict es) = .ok f ↔ DescribesFlow (.dict es) f := by
  simp only [flow, bind_eq_ok_iff, stepsField_eq_ok_iff hes, textField_eq_ok_iff hes]
  constructor
  · rintro ⟨items, hitems, name, hname, goal, hgoal, steps, hsteps, ⟨⟩⟩
    have hjson := isJson_of_reads_steps hes hitems
    exact .mapping (readsText_word_iff.mpr ⟨name, hname, rfl⟩)
      (readsText_word_iff.mpr ⟨goal, hgoal, rfl⟩) hitems ((mapM_step_eq_ok_iff hjson).mp hsteps)
  · rintro ⟨named, aimed, listed, each⟩
    obtain ⟨name, hname, rfl⟩ := readsText_word_iff.mp named
    obtain ⟨goal, hgoal, rfl⟩ := readsText_word_iff.mp aimed
    have hjson := isJson_of_reads_steps hes listed
    exact ⟨_, listed, name, hname, goal, hgoal, _, (mapM_step_eq_ok_iff hjson).mpr each, rfl⟩

theorem flow_not_isValidation_iff [Limits] :
    (∃ e, flow (.dict es) = .error e ∧ e.isValidation = false) ↔ UnreportableFlow (.dict es) := by
  simp only [flow, bind_eq_error_iff, stepsField_eq_ok_iff hes, textField_eq_ok_iff hes]
  constructor
  · rintro ⟨e, h, hval⟩
    have hnot : ¬ e.isValidation = true := by simp [hval]
    rcases h with h | ⟨items, hitems, h | ⟨name, hname, h | ⟨goal, hgoal, h | ⟨_, -, h⟩⟩⟩⟩
    · exact absurd (isValidation_of_stepsField h) hnot
    · exact absurd (isValidation_of_textField h) hnot
    · exact absurd (isValidation_of_textField h) hnot
    · have hjson := isJson_of_reads_steps hes hitems
      obtain ⟨x, hfirst, hx⟩ := (mapM_step_eq_error_iff hjson).mp h
      obtain ⟨ds, rfl, hds⟩ :=
        (step_not_isValidation_iff (hjson x hfirst.mem)).mp ⟨e, hx, hval⟩
      exact .step ⟨name, hname⟩ ⟨goal, hgoal⟩ hitems hfirst hds
    · cases h
  · rintro ⟨⟨name, hname⟩, ⟨goal, hgoal⟩, listed, first, refused⟩
    have hjson := isJson_of_reads_steps hes listed
    obtain ⟨e, he, hval⟩ :=
      (step_not_isValidation_iff (hjson _ first.mem)).mpr ⟨_, rfl, refused⟩
    have hsteps := (mapM_step_eq_error_iff hjson).mpr ⟨_, first, he⟩
    exact ⟨e, Or.inr ⟨_, listed, Or.inr ⟨name, hname, Or.inr ⟨goal, hgoal, Or.inl hsteps⟩⟩⟩, hval⟩

end

/-- **What is read from a value of a JSON text**: the flow that it describes, if it describes one, and
otherwise a validation error, unless the error has to show what cannot be shown. -/
theorem flow_described [Limits] {v : Value} (hv : v.IsJson) :
    (∀ f, flow v = .ok f ↔ DescribesFlow v f) ∧
    ((∀ e, flow v = .error e → e.isValidation = true) ↔ ¬ UnreportableFlow v) := by
  have hvalidates : (∀ e, flow v = .error e → e.isValidation = true) ↔
      ¬ ∃ e, flow v = .error e ∧ e.isValidation = false := by
    simp only [not_exists, not_and, Bool.not_eq_false]
  by_cases hdict : ∃ es, v = .dict es
  · obtain ⟨es, rfl⟩ := hdict
    refine ⟨fun f => flow_eq_ok_iff hv, ?_⟩
    rw [hvalidates, flow_not_isValidation_iff hv]
  · have hflow := flow_of_not_mapping hv (not_exists.mp hdict)
    refine ⟨fun f => iff_of_false ?_ ?_, iff_of_true ?_ ?_⟩
    · rw [hflow]
      exact fun h => by cases h
    · rintro ⟨⟩
      exact hdict ⟨_, rfl⟩
    · intro e he
      rw [hflow] at he
      cases he
      rfl
    · rintro ⟨⟩
      exact hdict ⟨_, rfl⟩

/-! ### Flows of one step -/

/-- The document of a flow of one step. -/
def ofStep (ds : Entries Scalar Value) : Entries Scalar Value :=
  [(.text "steps", .list [.dict ds])]

section
variable {ds : Entries Scalar Value} {missing null : Option Text}

theorem isJson_ofStep (h : (dict ds).IsJson) : (dict (ofStep ds)).IsJson := by
  have hsteps : (list [.dict ds]).IsJson := .list (by simpa using h)
  exact .dict (by simp [ofStep]) (by simpa [ofStep] using hsteps)

theorem readsText_ofStep {name : String} (h : "steps" ≠ name) :
    ReadsText missing null (field? (ofStep ds) name) missing := by
  rw [ofStep, field?_cons, if_neg h, field?_nil]
  exact .missing

theorem readsSteps_ofStep : ReadsSteps (field? (ofStep ds) "steps") [.dict ds] := by
  rw [ofStep, field?_cons, if_pos rfl]
  exact .list _

end

/-- A reference that leaves its flow open and gives a name twice. -/
def sendDocument : Entries Scalar Value := [
  (.text "flowName", .null), (.text "provides", .list [.text "email", .text "email"]),
  (.text "passthrough", .text []), (.text "completionType", .text "AtLeastOnce")]

/-- The step that it describes. -/
def sendStep : Step where
  goal := some []
  provides := [.text "email"]
  completion := .atLeastOnce
  transitionMessage := some Step.defaultTransitionMessage
  kind := .reference (some [])

theorem isJson_send : (dict sendDocument).IsJson := by
  have htext (t : Text) : (Value.text t).IsJson := .scalar trivial
  have hnames : (list [.text "email", .text "email"]).IsJson := .list (by simp [htext])
  refine .dict (by simp [sendDocument]) ?_
  simp only [sendDocument, List.forall_mem_cons, List.not_mem_nil, false_imp_iff, implies_true,
    and_true]
  exact ⟨.scalar trivial, hnames, htext _, htext _⟩

theorem describesStep_send : DescribesStep sendDocument sendStep := by
  have hnames : ([("email" : Text), "email"].map Scalar.text).eraseDups = [.text "email"] := by
    simp [List.eraseDups_cons]
  have hprovides := ReadsNames.list ["email", "email"]
  rw [hnames] at hprovides
  have hunreserved : Unreserved sendStep.provides := by
    simp [sendStep, Unreserved, Text.ofString_inj]
  refine ⟨?_, ?_, ?_, ?_, hunreserved, ?_, ?_, ?_, ?_, ?_⟩ <;>
    simp only [sendDocument, field?_cons, field?_nil, String.reduceEq, reduceIte]
  · exact .missing
  · exact .names (by simp) .missing
  · exact .names (by simp) hprovides
  · exact .empty
  · exact .spelling .atLeastOnce
  · exact .missing
  · exact .missing
  · exact .missing
  · exact .null

section Frames
attribute [local instance] Limits.thousandFrames

theorem flow_described_send : (dict (ofStep sendDocument)).IsJson ∧
    flow (.dict (ofStep sendDocument)) = .ok (Flow.ofSteps (some []) (some []) [sendStep]) := by
  have hjson := isJson_ofStep isJson_send
  have hdescribes : DescribesFlow (.dict (ofStep sendDocument))
      (Flow.ofSteps (some []) (some []) [sendStep]) := by
    refine .mapping ?_ ?_ readsSteps_ofStep (.cons ⟨_, rfl, describesStep_send⟩ .nil)
    · exact readsText_ofStep (by simp)
    · exact readsText_ofStep (by simp)
  exact ⟨hjson, ((flow_described hjson).1 _).mpr hdescribes⟩

end Frames

/-- A step that gives nothing but a policy. -/
def policyDocument (v : Value) : Entries Scalar Value := [(.text "completionType", v)]

theorem field?_policyDocument (v : Value) (name : String) :
    field? (policyDocument v) name = if "completionType" = name then some v else none := by
  rw [policyDocument, field?_cons, field?_nil]

theorem isJson_policyDocument {v : Value} (h : v.IsJson) : (dict (policyDocument v)).IsJson := by
  refine .dict (fun e he => ?_) fun e he => ?_
  all_goals
    rw [policyDocument, List.mem_singleton] at he
    subst he
  · exact ⟨_, rfl⟩
  · exact h

/-- A policy that cannot be shown is refused without a validation error. -/
theorem unreportableFlow_policyDocument [Limits] {v : Value} (h : ¬ Shown Limits.showing v) :
    UnreportableFlow (.dict (ofStep (policyDocument v))) := by
  have hcompletion : field? (policyDocument v) "completionType" = some v := by
    rw [field?_policyDocument, if_pos rfl]
  have hmissing : ∀ name, "completionType" ≠ name → field? (policyDocument v) name = none :=
    fun name hname => by rw [field?_policyDocument, if_neg hname]
  have hnone : ¬ ∃ s, IsStep (.dict (policyDocument v)) s := by
    rintro ⟨s, _, ⟨⟩, hs⟩
    have hpolicy := hs.completion
    rw [hcompletion] at hpolicy
    exact h (hpolicy.shown Limits.showing_pos)
  have hrefused : Unreportable (policyDocument v) := by
    refine ⟨⟨none, ?_⟩, ⟨none, ?_⟩, ⟨none, ?_⟩, ⟨none, ?_⟩, v, hcompletion, h⟩
    all_goals rw [hmissing _ (by simp)]
    · exact .missing
    · exact .missing
    · exact .missing
    · exact .missing
  refine .step ⟨none, ?_⟩ ⟨none, ?_⟩ readsSteps_ofStep ⟨[], [], rfl, hnone, by simp⟩ hrefused
  · exact readsText_ofStep (by simp)
  · exact readsText_ofStep (by simp)

/-- A whole number with too many digits in place of a policy. -/
def longPolicy : Value := .int (10 ^ Decimal.maxDigits : Nat)

section Frames
attribute [local instance] Limits.thousandFrames

theorem not_validated_long : (dict (ofStep (policyDocument longPolicy))).IsJson ∧
    ∃ e, flow (.dict (ofStep (policyDocument longPolicy))) = .error e ∧
      e.isValidation = false := by
  have hjson := isJson_ofStep (isJson_policyDocument (v := longPolicy) (.scalar trivial))
  have hhidden : ¬ Shown Limits.showing longPolicy := not_shown_of_long (Nat.le_refl _)
  exact ⟨hjson, (flow_not_isValidation_iff hjson).mpr (unreportableFlow_policyDocument hhidden)⟩

end Frames

end Stepwise.Document
