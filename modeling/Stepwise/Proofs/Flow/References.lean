import Stepwise.Proofs.Outcome
import Stepwise.Proofs.Flow.Binding
import Stepwise.Proofs.Session.Validation

/-!
# Registered flows and their references

A registered flow is fit to be run if it is well formed and each of its references stands for a
flow that is registered too. Whether a reference does is asked of the names there are, and names are
never taken away one by one, so what is fit stays fit until the registry is emptied.

* `Fit`, `Refuses`: what is asked of a name, and what is said of one that is not fit; `dangling` are
  the references of a flow that do not resolve, in the order of the steps.
* `fit_or_refuses`: the check of a name passes and the name is fit, or it says what refuses the
  name.
* `Extends`: a registry in which all names stand for what they stood for. A request that does not
  empty the registry extends it (`extends_after`), and so does a run of such requests
  (`extends_run`).
* `dangling_sublist`: in a registry that extends another one fewer references dangle.
* `fit_forever`: so a name that is fit stays so, and the references that dangle get fewer.
-/

namespace Stepwise

/-- The name that a step gives if it is a reference. -/
def Step.target (s : Step) : Option Text :=
  match s.kind with
  | .reference flowName => flowName
  | .plain => none

/-- What is said of a reference that does not resolve. -/
def Unresolved.ofStep (s : Step) : Unresolved := ⟨s.goal, s.target⟩

namespace FlowRegistry

variable {r r' : FlowRegistry} {f : Flow} {s : Step} {n : Option Text}

/-! ### References that do not resolve -/

/-- **A dangling reference**: the step is a reference, and no flow is found for it. -/
def Dangles (r : FlowRegistry) (s : Step) : Prop :=
  s.isReference = true ∧ ∀ g, r.resolve s ≠ .ok g

theorem resolve_reference (h : s.isReference = true) : r.resolve s = r.get s.target := by
  unfold Step.isReference at h
  unfold resolve Step.target
  cases hkind : s.kind with
  | plain => rw [hkind] at h; cases h
  | reference flowName => rfl

theorem exists_get_iff : (∃ g, r.get n = .ok g) ↔ r.flows.hasKey n = true := by
  rw [get_eq, ← Entries.isSome_get?]
  cases r.flows.get? n <;> simp

theorem unresolved?_of_dangles (h : r.Dangles s) : r.unresolved? s = some (.ofStep s) := by
  obtain ⟨href, hnone⟩ := h
  rw [resolve_reference href, ← not_exists, exists_get_iff] at hnone
  unfold Step.isReference at href
  unfold unresolved? Unresolved.ofStep
  unfold Step.target at hnone ⊢
  cases hkind : s.kind with
  | plain => rw [hkind] at href; cases href
  | reference flowName => rw [hkind] at hnone; exact if_neg hnone

theorem unresolved?_of_not_dangles (h : ¬ r.Dangles s) : r.unresolved? s = none := by
  unfold unresolved?
  cases hkind : s.kind with
  | plain => rfl
  | reference flowName =>
    have href : s.isReference = true := by
      unfold Step.isReference
      rw [hkind]
    have htarget : s.target = flowName := by
      unfold Step.target
      rw [hkind]
    refine if_pos ?_
    by_contra hkey
    refine h ⟨href, ?_⟩
    rwa [resolve_reference href, ← not_exists, exists_get_iff, htarget]

instance (r : FlowRegistry) (s : Step) : Decidable (r.Dangles s) :=
  decidable_of_iff ((r.unresolved? s).isSome = true) <| by
    by_cases h : r.Dangles s
    · simp [unresolved?_of_dangles h, h]
    · simp [unresolved?_of_not_dangles h, h]

/-- **The dangling references of a flow**, in the order of its steps and as often as they stand
there. -/
def dangling (r : FlowRegistry) (f : Flow) : List Unresolved :=
  (f.steps.filter (r.Dangles ·)).map .ofStep

theorem filterMap_unresolved? (r : FlowRegistry) (ss : List Step) :
    ss.filterMap r.unresolved? = (ss.filter (r.Dangles ·)).map .ofStep := by
  induction ss with
  | nil => rfl
  | cons s ss ih =>
    by_cases h : r.Dangles s
    · rw [List.filterMap_cons_some (unresolved?_of_dangles h), ih,
        List.filter_cons_of_pos (by simpa using h), List.map_cons]
    · rw [List.filterMap_cons_none (unresolved?_of_not_dangles h), ih,
        List.filter_cons_of_neg (by simpa using h)]

theorem dangling_eq_nil : r.dangling f = [] ↔
    ∀ s ∈ f.steps, s.isReference = true → ∃ g, r.resolve s = .ok g := by
  rw [dangling, List.map_eq_nil_iff, List.filter_eq_nil_iff]
  refine forall₂_congr fun s _ => ?_
  rw [decide_eq_true_eq, Dangles, ← not_exists, not_and, not_not]

theorem checkReferences_eq (r : FlowRegistry) (n : Option Text) (f : Flow) :
    r.checkReferences n f =
      if r.dangling f = [] then .ok () else .error (.unresolved n (r.dangling f)) := by
  unfold checkReferences
  rw [filterMap_unresolved?]
  simp only [List.isEmpty_iff]
  rfl

/-! ### What the check of a name says -/

/-- **A name that is fit**: it stands for a flow, a validation passes the flow in every state, and
each reference of the flow resolves. -/
def Fit (r : FlowRegistry) (n : Option Text) : Prop :=
  ∃ f, r.get n = .ok f ∧ (∀ s : State, (s.validate f).1 = .ok ()) ∧
    ∀ s ∈ f.steps, s.isReference = true → ∃ g, r.resolve s = .ok g

/-- **What is said of a name that is not fit**: that there is no flow; else what a validation of the
flow says; else which references dangle. -/
inductive Refuses (r : FlowRegistry) (n : Option Text) : RegistryError → Prop
  | notFound (free : n ∉ r.names) : Refuses r n (.notFound n)
  | violation {f : Flow} {v : Violation} (found : r.get n = .ok f)
      (fails : ∀ s : State, (s.validate f).1 = .error v) : Refuses r n (.violation v)
  | unresolved {f : Flow} (found : r.get n = .ok f)
      (passes : ∀ s : State, (s.validate f).1 = .ok ()) (dangle : r.dangling f ≠ []) :
      Refuses r n (.unresolved n (r.dangling f))

theorem validate_iff {o : Except Violation Unit} :
    (∀ s : State, (s.validate f).1 = o) ↔ f.check = o :=
  ⟨fun h => State.validate_fst {} f ▸ h {}, fun h s => (State.validate_fst s f).trans h⟩

theorem check_eq_of_get (h : r.get n = .ok f) :
    r.check n = f.check.mapError .violation >>= fun _ => r.checkReferences n f := by
  unfold check
  rw [h]
  rfl

theorem mem_names : n ∈ r.names ↔ ∃ f, r.get n = .ok f := by
  rw [exists_get_iff, Entries.hasKey_iff]
  simp [names]

theorem get_of_not_mem (h : n ∉ r.names) : r.get n = .error (.notFound n) := by
  rw [mem_names, not_exists] at h
  rw [get_eq] at h ⊢
  cases hget : r.flows.get? n with
  | none => rfl
  | some f => rw [hget] at h; exact absurd rfl (h f)

theorem check_of_not_mem (h : n ∉ r.names) : r.check n = .error (.notFound n) := by
  unfold check
  rw [get_of_not_mem h]
  rfl

theorem check_of_violation {v : Violation} (h : r.get n = .ok f) (hv : f.check = .error v) :
    r.check n = .error (.violation v) := by
  rw [check_eq_of_get h, hv]
  rfl

theorem check_of_passes (h : r.get n = .ok f) (hok : f.check = .ok ()) : r.check n =
    if r.dangling f = [] then .ok () else .error (.unresolved n (r.dangling f)) := by
  rw [check_eq_of_get h, hok, ← checkReferences_eq]
  rfl

/-- The check of a name passes and the name is fit, or it fails with what refuses the name. -/
theorem fit_or_refuses (r : FlowRegistry) (n : Option Text) :
    (r.check n = .ok () ∧ r.Fit n) ∨ ∃ e, r.check n = .error e ∧ r.Refuses n e := by
  by_cases hn : n ∈ r.names
  · obtain ⟨f, hf⟩ := mem_names.mp hn
    cases hcheck : f.check with
    | error v =>
      exact Or.inr ⟨_, check_of_violation hf hcheck, .violation hf (validate_iff.mpr hcheck)⟩
    | ok u =>
      have hpasses := check_of_passes hf hcheck
      by_cases hnil : r.dangling f = []
      · rw [if_pos hnil] at hpasses
        exact Or.inl ⟨hpasses, f, hf, validate_iff.mpr hcheck, dangling_eq_nil.mp hnil⟩
      · rw [if_neg hnil] at hpasses
        exact Or.inr ⟨_, hpasses, .unresolved hf (validate_iff.mpr hcheck) hnil⟩
  · exact Or.inr ⟨_, check_of_not_mem hn, .notFound hn⟩

theorem check_eq_ok_iff : r.check n = .ok () ↔ r.Fit n := by
  constructor
  · intro h
    obtain ⟨-, hfit⟩ | ⟨e, he, -⟩ := fit_or_refuses r n
    · exact hfit
    · rw [h] at he; cases he
  · rintro ⟨f, hf, hok, hall⟩
    rw [check_of_passes hf (validate_iff.mp hok), if_pos (dangling_eq_nil.mpr hall)]

theorem check_eq_error_iff {e : RegistryError} : r.check n = .error e ↔ r.Refuses n e := by
  constructor
  · intro h
    obtain ⟨hok, -⟩ | ⟨e', he, hrefuses⟩ := fit_or_refuses r n
    · rw [h] at hok; cases hok
    · rw [h] at he; cases he; exact hrefuses
  · rintro (hn | ⟨hf, hv⟩ | ⟨hf, hok, hne⟩)
    · exact check_of_not_mem hn
    · exact check_of_violation hf (validate_iff.mp hv)
    · rw [check_of_passes hf (validate_iff.mp hok), if_neg hne]

/-! ### Registries that get more -/

/-- All names stand for what they stood for. -/
def Extends (r r' : FlowRegistry) : Prop :=
  ∀ n f, r.flows.get? n = some f → r'.flows.get? n = some f

theorem extends_refl (r : FlowRegistry) : r.Extends r := fun _ _ h => h

/-- A request extends the registry unless it empties it. -/
theorem extends_after (r : FlowRegistry) {q : Request} (h : q ≠ .clear) :
    r.Extends (r.after q) := by
  cases q with
  | clear => exact absurd rfl h
  | get n => exact extends_refl r
  | resolve s => exact extends_refl r
  | check n => exact extends_refl r
  | register f =>
    rcases register_cases r f with ⟨-, -, -, hr⟩ | ⟨-, -, -, hr⟩ | ⟨hfree, hr⟩
    · rw [after_of_ok hr]
      exact extends_refl r
    · rw [after_of_error hr]
      exact extends_refl r
    · rw [after_of_ok hr]
      intro n g hg
      have hne : f.name ≠ n := by
        rintro rfl
        rw [hfree] at hg
        cases hg
      rw [Entries.get?_insert, if_neg (by simpa using hne)]
      exact hg

theorem extends_foldl (more : List Request) (h : ∀ q ∈ more, q ≠ .clear) (r : FlowRegistry) :
    r.Extends (more.foldl after r) := by
  induction more generalizing r with
  | nil => exact extends_refl r
  | cons q more ih =>
    obtain ⟨hq, hmore⟩ := List.forall_mem_cons.mp h
    intro n f hf
    exact ih hmore (r.after q) n f (extends_after r hq n f hf)

theorem extends_run (requests more : List Request) (h : ∀ q ∈ more, q ≠ .clear) :
    (run requests).Extends (run (requests ++ more)) := by
  unfold run
  rw [List.foldl_append]
  exact extends_foldl more h _

section Extends
variable (h : r.Extends r')
include h

theorem Extends.get (hf : r.get n = .ok f) : r'.get n = .ok f := by
  rw [get_eq] at hf ⊢
  cases hget : r.flows.get? n with
  | none => rw [hget] at hf; cases hf
  | some g => rwa [h n g hget, ← hget]

theorem Extends.dangles (hs : r'.Dangles s) : r.Dangles s := by
  obtain ⟨href, hnone⟩ := hs
  refine ⟨href, fun g hg => hnone g ?_⟩
  rw [resolve_reference href] at hg ⊢
  exact h.get hg

/-- Fewer references dangle. -/
theorem Extends.dangling_sublist (f : Flow) : (r'.dangling f).Sublist (r.dangling f) :=
  (List.monotone_filter_right _ fun s hs => by
    simp only [decide_eq_true_eq] at hs ⊢
    exact h.dangles hs).map _

theorem Extends.check_of_unresolved {us : List Unresolved}
    (hus : r.check n = .error (.unresolved n us)) : ∃ left, left.Sublist us ∧
      r'.check n = if left = [] then .ok () else .error (.unresolved n left) := by
  rw [check_eq_error_iff] at hus
  generalize he : RegistryError.unresolved n us = e at hus
  cases hus with
  | notFound => cases he
  | violation => cases he
  | @unresolved f found passes dangle =>
    cases he
    have hcheck := check_of_passes (h.get found) (validate_iff.mp passes)
    exact ⟨r'.dangling f, h.dangling_sublist f, hcheck⟩

theorem Extends.fit (hfit : r.Fit n) : r'.Fit n := by
  obtain ⟨f, hf, hok, hall⟩ := hfit
  refine ⟨f, h.get hf, hok, dangling_eq_nil.mp ?_⟩
  exact List.sublist_nil.mp (dangling_eq_nil.mpr hall ▸ h.dangling_sublist f)

end Extends

/-- **A name that is fit stays fit.** The check of a name passes exactly if the name is fit, and
says of any other name what is first at fault: there is no flow, or a validation of the flow fails,
or some references dangle, all of which it lists. Behind any further requests that do not empty the
registry, refused ones among them, a name that was fit still is; and where references dangled, the
check passes or lists what is left of them. -/
theorem fit_forever (requests : List Request) (n : Option Text) :
    ((run requests).check n = .ok () ↔ (run requests).Fit n) ∧
    (∀ e, (run requests).check n = .error e ↔ (run requests).Refuses n e) ∧
    ∀ more : List Request, (∀ q ∈ more, q ≠ .clear) →
      ((run requests).check n = .ok () → (run (requests ++ more)).check n = .ok ()) ∧
      ∀ us, (run requests).check n = .error (.unresolved n us) → ∃ left, left.Sublist us ∧
        (run (requests ++ more)).check n =
          if left = [] then .ok () else .error (.unresolved n left) := by
  refine ⟨check_eq_ok_iff, fun e => check_eq_error_iff, fun more hmore => ?_⟩
  refine ⟨fun h => ?_, fun us h => ?_⟩
  · rw [check_eq_ok_iff] at h ⊢
    exact (extends_run requests more hmore).fit h
  · exact (extends_run requests more hmore).check_of_unresolved h

end FlowRegistry

end Stepwise
