import Stepwise.Proofs.Document.Fields

/-!
# Steps in documents

A mapping describes at most one step (`DescribesStep`), and this is the step that is read from it
(`step_eq_ok_iff`). Where it describes none, what is reported is a validation error, unless the error
has to show a value that cannot be shown (`Unreportable`).
-/

namespace Stepwise.Document

open Value

/-! ### Names of a step -/

theorem scalarsOf_map (ts : List Text) : scalarsOf (ts.map .text) = .ok (ts.map Scalar.text) := by
  induction ts with
  | nil => rfl
  | cons t ts ih =>
    rw [List.map_cons, scalarsOf, ih]
    rfl

theorem namesOf_of_reads {v : Option Value} {ns : Option (List Scalar)} (h : ReadsNames v ns) :
    namesOf (v.getD .null) = .ok (ns.getD []) := by
  rcases h with _ | _ | t | ts
  · rfl
  · rfl
  · rfl
  · have hscalars := scalarsOf_map ts
    simp only [Option.getD_some, namesOf, hscalars, ← distinct_eq_eraseDups]
    rfl

theorem pluginsOf_of_reads {v : Option Value} {ns : Option (List Scalar)} (h : ReadsNames v ns) :
    Step.pluginsOf (v.getD .null) = .ok ns := by
  have hnames := namesOf_of_reads h
  rcases h with _ | _ | t | ts
  · rfl
  · rfl
  · rfl
  · rw [Option.getD_some] at hnames
    rw [Option.getD_some, Step.pluginsOf, hnames]
    · rfl
    · exact Value.noConfusion

theorem namesOf_of_reads_variables {v : Option Value} {ns : List Scalar}
    (h : ReadsVariables v ns) : namesOf (orNone (v.getD .null)) = .ok ns := by
  rcases h with _ | ⟨nonempty, names⟩
  · rfl
  · have hnames := namesOf_of_reads names
    rcases names with _ | _ | _ | ts
    · rfl
    · rfl
    · next t =>
      have htrue : (Value.text t).isTruthy = true := by
        simpa [isTruthy, Scalar.isTruthy] using nonempty
      rw [Option.getD_some, orNone, if_pos htrue]
      exact hnames
    · rcases ts with _ | ⟨t, ts⟩
      · rfl
      · exact hnames

theorem exists_variables_iff {v : Option Value} :
    (∃ ns, ReadsVariables v ns) ↔ ∃ ns, ReadsNames v ns := by
  constructor
  · rintro ⟨ns, _ | ⟨-, names⟩⟩
    · exact ⟨_, .text []⟩
    · exact ⟨_, names⟩
  · rintro ⟨ns, names⟩
    by_cases hempty : v = some (.text [])
    · exact ⟨[], hempty ▸ .empty⟩
    · exact ⟨_, .names hempty names⟩

/-- No name is one of the variables that belong to the engine. -/
def Unreserved (ns : List Scalar) : Prop :=
  ∀ n ∈ ns, n ≠ .text "_chatHistory" ∧ n ≠ .text "_chatInput"

theorem beq_text_iff {n : Scalar} {t : Text} : (n == .text t) = true ↔ n = .text t := by
  rw [Scalar.beq_iff_key_eq]
  constructor
  · intro h
    rcases n with _ | b | i | x | u | bs | d | m
    all_goals simp only [Scalar.key, reduceCtorEq] at h
    · unfold Scalar.floatKey at h
      split at h <;> cases h
    · rw [Scalar.Key.text.inj h]
    · split at h <;> cases h
  · rintro rfl
    rfl

theorem filter_isReserved_eq_nil {ns : List Scalar} :
    ns.filter isReserved = [] ↔ Unreserved ns := by
  rw [List.filter_eq_nil_iff]
  refine forall₂_congr fun n _ => ?_
  simp [isReserved, reservedVariables, beq_text_iff]

theorem variablesOf_eq {v : Option Value} {ns : List Scalar} (h : ReadsVariables v ns) :
    Step.variablesOf (orNone (v.getD .null)) =
      if (ns.filter isReserved).isEmpty then .ok ns else .error (.reserved (ns.filter isReserved)) := by
  rw [Step.variablesOf, namesOf_of_reads_variables h]
  rfl

theorem variablesOf_eq_ok_iff {v : Option Value} (hv : ∃ ns, ReadsNames v ns) {ns : List Scalar} :
    Step.variablesOf (orNone (v.getD .null)) = .ok ns ↔ ReadsVariables v ns ∧ Unreserved ns := by
  obtain ⟨vs, hvs⟩ := exists_variables_iff.mpr hv
  have hunique : ReadsVariables v ns ↔ vs = ns := by
    constructor
    · intro h
      have heq := (namesOf_of_reads_variables hvs).symm.trans (namesOf_of_reads_variables h)
      exact Except.ok.inj heq
    · rintro rfl
      exact hvs
  rw [variablesOf_eq hvs, hunique, ← filter_isReserved_eq_nil, ← List.isEmpty_iff]
  split
  · next hnone =>
    constructor
    · rintro ⟨⟩
      exact ⟨rfl, hnone⟩
    · rintro ⟨rfl, -⟩
      rfl
  · next hsome =>
    refine iff_of_false (fun h => by cases h) ?_
    rintro ⟨rfl, hnone⟩
    exact hsome hnone

theorem reserved_of_variablesOf {v : Option Value} (hv : ∃ ns, ReadsNames v ns)
    {e : Step.BuildError} (he : Step.variablesOf (orNone (v.getD .null)) = .error e) :
    ∃ names, e = .reserved names := by
  obtain ⟨vs, hvs⟩ := exists_variables_iff.mpr hv
  rw [variablesOf_eq hvs] at he
  split at he
  · cases he
  · cases he
    exact ⟨_, rfl⟩

/-! ### Steps -/

/-- **A mapping describes a step**: what stands under each key gives a part of the step, and its
variables are none of the engine's. -/
structure DescribesStep (es : Entries Scalar Value) (s : Step) : Prop where
  goal : ReadsText (some []) (some []) (field? es "goal") s.goal
  requires : ReadsVariables (field? es "requires") s.requires
  provides : ReadsVariables (field? es "provides") s.provides
  passthrough : ReadsVariables (field? es "passthrough") s.passthrough
  unreserved : Unreserved (s.requires ++ s.provides ++ s.passthrough)
  completion : ReadsCompletion (field? es "completionType") s.completion
  startingMessage : ReadsText none none (field? es "startingMessage") s.startingMessage
  transitionMessage : ReadsText (some Step.defaultTransitionMessage) none
    (field? es "transitionMessage") s.transitionMessage
  plugins : ReadsNames (field? es "plugins") s.plugins
  kind : ReadsKind (field? es "flowName") s.kind

/-- A text that is not given counts as the empty one. -/
theorem readsText_word_iff {v : Option Value} {w : Option Text} :
    ReadsText (some []) (some []) v w ↔ ∃ t, ReadsText none none v t ∧ w = some (t.getD []) := by
  constructor
  · rintro (_ | _ | t)
    · exact ⟨none, .missing, rfl⟩
    · exact ⟨none, .null, rfl⟩
    · exact ⟨some t, .text t, rfl⟩
  · rintro ⟨_, _ | _ | t, rfl⟩
    · exact .missing
    · exact .null
    · exact .text t

theorem unreserved_append {ns ms : List Scalar} :
    Unreserved (ns ++ ms) ↔ Unreserved ns ∧ Unreserved ms := List.forall_mem_append

theorem build_eq_ok_iff [Limits] {p : Step.Parts} {s : Step} :
    Step.build p = .ok s ↔
      Step.variablesOf p.requires = .ok s.requires ∧ Step.variablesOf p.provides = .ok s.provides ∧
      Step.variablesOf p.passthrough = .ok s.passthrough ∧ Step.pluginsOf p.plugins = .ok s.plugins ∧
      Step.completionOf p.completion = .ok s.completion ∧ s.goal = p.goal ∧
      s.startingMessage = p.startingMessage ∧ s.transitionMessage = p.transitionMessage ∧
      s.kind = p.kind := by
  simp only [Step.build, bind_eq_ok_iff]
  constructor
  · rintro ⟨requires, h₁, provides, h₂, passthrough, h₃, plugins, h₄, completion, h₅, ⟨⟩⟩
    exact ⟨h₁, h₂, h₃, h₄, h₅, rfl, rfl, rfl, rfl⟩
  · rintro ⟨h₁, h₂, h₃, h₄, h₅, hgoal, hstarting, htransition, hkind⟩
    refine ⟨_, h₁, _, h₂, _, h₃, _, h₄, _, h₅, ?_⟩
    rw [← hgoal, ← hstarting, ← htransition, ← hkind]
    rfl

theorem build_eq_error [Limits] {p : Step.Parts} {e : Step.BuildError} (h : Step.build p = .error e) :
    Step.variablesOf p.requires = .error e ∨ Step.variablesOf p.provides = .error e ∨
    Step.variablesOf p.passthrough = .error e ∨ Step.pluginsOf p.plugins = .error e ∨
    Step.completionOf p.completion = .error e := by
  simp only [Step.build, bind_eq_error_iff] at h
  rcases h with h | ⟨_, -, h | ⟨_, -, h | ⟨_, -, h | ⟨_, -, h | ⟨_, -, h⟩⟩⟩⟩⟩
  · exact Or.inl h
  · exact Or.inr (Or.inl h)
  · exact Or.inr (Or.inr (Or.inl h))
  · exact Or.inr (Or.inr (Or.inr (Or.inl h)))
  · exact Or.inr (Or.inr (Or.inr (Or.inr h)))
  · cases h

theorem completionOf_completion_eq_ok_iff [Limits] {c d : Completion} :
    Step.completionOf (.completion c) = .ok d ↔ c = d := by
  have hread : (Value.completion c).string?.bind Completion.ofSpelling? = some c := by
    simp [string?, text?, Completion.ofSpelling?_spelling]
  rw [Step.completionOf, hread]
  exact ⟨Except.ok.inj, congrArg Except.ok⟩

theorem pluginsOf_eq_ok_iff {v : Option Value} (hv : ∃ ns, ReadsNames v ns)
    {ns : Option (List Scalar)} : Step.pluginsOf (v.getD .null) = .ok ns ↔ ReadsNames v ns := by
  obtain ⟨ms, hms⟩ := hv
  refine ⟨fun h => ?_, pluginsOf_of_reads⟩
  have heq := (pluginsOf_of_reads hms).symm.trans h
  exact Except.ok.inj heq ▸ hms

section
variable {es : Entries Scalar Value} (hes : (dict es).IsJson)
include hes

theorem step_eq_ok_iff [Limits] {s : Step} : step (.dict es) = .ok s ↔ DescribesStep es s := by
  simp only [step, bind_eq_ok_iff, textField_eq_ok_iff hes, namesField_eq_ok_iff hes,
    completionField_eq_ok_iff hes, kindField_eq_ok_iff hes, mapError_eq_ok_iff, build_eq_ok_iff,
    completionOf_completion_eq_ok_iff]
  constructor
  · rintro ⟨goal, hgoal, _, ⟨rfl, hrequires⟩, _, ⟨rfl, hprovides⟩, _, ⟨rfl, hpassthrough⟩,
      completion, hcompletion, starting, hstarting, transition, htransition, _, ⟨rfl, hplugins⟩,
      kind, hkind, h₁, h₂, h₃, h₄, rfl, hg, rfl, rfl, rfl⟩
    obtain ⟨hreq, hreq'⟩ := (variablesOf_eq_ok_iff hrequires).mp h₁
    obtain ⟨hprov, hprov'⟩ := (variablesOf_eq_ok_iff hprovides).mp h₂
    obtain ⟨hpass, hpass'⟩ := (variablesOf_eq_ok_iff hpassthrough).mp h₃
    exact {
      goal := readsText_word_iff.mpr ⟨goal, hgoal, hg⟩
      requires := hreq
      provides := hprov
      passthrough := hpass
      unreserved := unreserved_append.mpr ⟨unreserved_append.mpr ⟨hreq', hprov'⟩, hpass'⟩
      completion := hcompletion
      startingMessage := hstarting
      transitionMessage := htransition
      plugins := (pluginsOf_eq_ok_iff hplugins).mp h₄
      kind := hkind }
  · intro h
    obtain ⟨goal, hgoal, hg⟩ := readsText_word_iff.mp h.goal
    obtain ⟨hfirst, hpass⟩ := unreserved_append.mp h.unreserved
    obtain ⟨hreq, hprov⟩ := unreserved_append.mp hfirst
    have hrequires := exists_variables_iff.mp ⟨_, h.requires⟩
    have hprovides := exists_variables_iff.mp ⟨_, h.provides⟩
    have hpassthrough := exists_variables_iff.mp ⟨_, h.passthrough⟩
    exact ⟨goal, hgoal, _, ⟨rfl, hrequires⟩, _, ⟨rfl, hprovides⟩, _, ⟨rfl, hpassthrough⟩,
      _, h.completion, _, h.startingMessage, _, h.transitionMessage, _, ⟨rfl, _, h.plugins⟩,
      _, h.kind, (variablesOf_eq_ok_iff hrequires).mpr ⟨h.requires, hreq⟩,
      (variablesOf_eq_ok_iff hprovides).mpr ⟨h.provides, hprov⟩,
      (variablesOf_eq_ok_iff hpassthrough).mpr ⟨h.passthrough, hpass⟩,
      pluginsOf_of_reads h.plugins, rfl, hg, rfl, rfl, rfl⟩

/-! ### Refusals of a step -/

/-- **A step that is refused without a validation error**: what stands for its policy is no policy and
cannot be shown, and nothing that is read before it is refused. -/
structure Unreportable [Limits] (es : Entries Scalar Value) : Prop where
  goal : ∃ t, ReadsText none none (field? es "goal") t
  requires : ∃ ns, ReadsNames (field? es "requires") ns
  provides : ∃ ns, ReadsNames (field? es "provides") ns
  passthrough : ∃ ns, ReadsNames (field? es "passthrough") ns
  completion : ∃ v, field? es "completionType" = some v ∧ ¬ Shown Limits.showing v

omit hes in
theorem isValidation_of_textField {key : String} {place : Text} {default : Option Text} {e : Fault}
    (h : textField es key place default = .error e) : e.isValidation = true := by
  unfold textField at h
  split at h
  · cases h
  · cases h
  · split at h
    · cases h
    · cases h
      rfl

omit hes in
theorem isValidation_of_namesField {key : String} {place : Text} {e : Fault}
    (h : namesField es key place = .error e) : e.isValidation = true := by
  unfold namesField at h
  split at h
  · cases h
  all_goals
    split at h
    · cases h
    · cases h
      rfl

omit hes in
theorem isValidation_of_kindField {place : Text} {e : Fault} (h : kindField es place = .error e) :
    e.isValidation = true := by
  unfold kindField at h
  split at h
  · rcases bind_eq_error_iff.mp h with h | ⟨t, -, h⟩
    · exact isValidation_of_textField h
    · cases h
  · cases h

theorem completionField_isValidation_iff [Limits] {goal : Text} {e : Fault}
    (h : completionField es goal = .error e) : e.isValidation = false ↔
      ∃ v, field? es "completionType" = some v ∧ ¬ Shown Limits.showing v := by
  unfold completionField at h
  split at h
  · cases h
  · cases h
  · next v hnull hfield =>
    have hv := isJson_of_field? hes hfield
    simp only [hfield, Option.some.injEq, exists_eq_left', ← hv.hindrance?_eq_none_iff]
    obtain ⟨e', he', rfl⟩ := mapError_eq_error_iff.mp h
    unfold Step.completionOf at he'
    split at he'
    · cases he'
    · split at he'
      · next hshown =>
        cases he'
        exact iff_of_false (by simp [Fault.isValidation]) fun hnot => hnot hshown
      · next hindrance hhidden =>
        cases he'
        exact iff_of_true rfl (by simp [hhidden])

theorem completionField_of_hidden [Limits] (goal : Text) {v : Value}
    (hfield : field? es "completionType" = some v) (hv : ¬ Shown Limits.showing v) :
    ∃ e, completionField es goal = .error e ∧ e.isValidation = false := by
  rcases hread : completionField es goal with e | c
  · exact ⟨e, rfl, (completionField_isValidation_iff hes hread).mpr ⟨v, hfield, hv⟩⟩
  · have hc := (completionField_eq_ok_iff hes).mp hread
    rw [hfield] at hc
    exact absurd (hc.shown Limits.showing_pos) hv

theorem step_of_unreportable [Limits] (h : Unreportable es) :
    ∃ e, step (.dict es) = .error e ∧ e.isValidation = false := by
  obtain ⟨⟨goal, hgoal⟩, hrequires, hprovides, hpassthrough, v, hfield, hv⟩ := h
  obtain ⟨e, he, hval⟩ := completionField_of_hidden hes (goal.getD []) hfield hv
  refine ⟨e, ?_, hval⟩
  simp only [step, bind_eq_error_iff]
  exact Or.inr ⟨goal, (textField_eq_ok_iff hes).mpr hgoal,
    Or.inr ⟨_, (namesField_eq_ok_iff hes).mpr ⟨rfl, hrequires⟩,
    Or.inr ⟨_, (namesField_eq_ok_iff hes).mpr ⟨rfl, hprovides⟩,
    Or.inr ⟨_, (namesField_eq_ok_iff hes).mpr ⟨rfl, hpassthrough⟩, Or.inl he⟩⟩⟩⟩

theorem unreportable_of_step [Limits] {e : Fault} (h : step (.dict es) = .error e)
    (he : e.isValidation = false) : Unreportable es := by
  have hnot : ¬ e.isValidation = true := by simp [he]
  simp only [step, bind_eq_error_iff, textField_eq_ok_iff hes, namesField_eq_ok_iff hes] at h
  rcases h with h | ⟨goal, hgoal, h | ⟨_, ⟨rfl, hrequires⟩, h | ⟨_, ⟨rfl, hprovides⟩, h |
    ⟨_, ⟨rfl, hpassthrough⟩, h | ⟨c, -, h⟩⟩⟩⟩⟩
  · exact absurd (isValidation_of_textField h) hnot
  · exact absurd (isValidation_of_namesField h) hnot
  · exact absurd (isValidation_of_namesField h) hnot
  · exact absurd (isValidation_of_namesField h) hnot
  · exact ⟨⟨goal, hgoal⟩, hrequires, hprovides, hpassthrough,
      (completionField_isValidation_iff hes h).mp he⟩
  · -- the policy is read, and what is read after it is refused with validation errors only
    refine absurd ?_ hnot
    rcases h with h | ⟨_, -, h | ⟨_, -, h | ⟨_, ⟨rfl, hplugins⟩, h | ⟨kind, -, h⟩⟩⟩⟩
    · exact isValidation_of_textField h
    · exact isValidation_of_textField h
    · exact isValidation_of_namesField h
    · exact isValidation_of_kindField h
    · obtain ⟨e', he', rfl⟩ := mapError_eq_error_iff.mp h
      have hreserved : ∃ names, e' = .reserved names := by
        rcases build_eq_error he' with h | h | h | h | h
        · exact reserved_of_variablesOf hrequires h
        · exact reserved_of_variablesOf hprovides h
        · exact reserved_of_variablesOf hpassthrough h
        · obtain ⟨ns, hns⟩ := hplugins
          rw [pluginsOf_of_reads hns] at h
          cases h
        · rw [completionOf_completion_eq_ok_iff.mpr rfl] at h
          cases h
      obtain ⟨names, rfl⟩ := hreserved
      rfl

end

end Stepwise.Document
