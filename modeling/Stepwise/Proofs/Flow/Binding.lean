import Mathlib.Data.List.Induction
import Stepwise.Flow.Registry
import Stepwise.Proofs.Distinct
import Stepwise.Proofs.Entries
import Stepwise.Proofs.Step.Equality

/-!
# What the names of a registry stand for

A registry is filled by requests to register a flow and emptied as a whole; all other requests only
look. Beside it stands the row of the flows that were to be registered since it was empty last.

* `register_cases`: what registering can do. A name that stands for a flow keeps it, and a flow that
  is not alike is refused; a name that is free gets the flow.
* `Bound`: a name stands for the first flow of the row that has it, and the names are those of the
  row without repetition. One request keeps this (`Bound.after`), and so does a run (`bound_run`).
* `first_bound`: so all answers of a registry are told by the row, and a request that is refused or
  that looks leaves the registry as it was.
-/

namespace Stepwise.FlowRegistry

/-- **Alike flows**: they have the same name and the same goal, and place by place steps of one kind
that are equal in all their parts. -/
def Alike (f g : Flow) : Prop :=
  f.name = g.name ∧ f.goal = g.goal ∧ f.steps.map Step.signature = g.steps.map Step.signature

/-! ### What registering can do -/

theorem get_eq (r : FlowRegistry) (n : Option Text) :
    r.get n = (r.flows.get? n).elim (.error (.notFound n)) .ok := by
  unfold get
  cases r.flows.get? n <;> rfl

/-- **What registering can do.** -/
theorem register_cases (r : FlowRegistry) (f : Flow) :
    (∃ g, r.flows.get? f.name = some g ∧ Alike g f ∧ r.register f = .ok r) ∨
    (∃ g, r.flows.get? f.name = some g ∧ ¬ Alike g f ∧
      r.register f = .error (.conflict f.name)) ∨
    (r.flows.get? f.name = none ∧ r.register f = .ok ⟨r.flows.insert f.name f⟩) := by
  have halike : ∀ g : Flow, g.same f = true ↔ Alike g f := fun g => Flow.same_iff
  unfold register
  cases hget : r.flows.get? f.name with
  | none => exact Or.inr (Or.inr ⟨rfl, rfl⟩)
  | some g =>
    by_cases hsame : g.same f = true
    · exact Or.inl ⟨g, rfl, (halike g).mp hsame, if_pos hsame⟩
    · exact Or.inr (Or.inl ⟨g, rfl, mt (halike g).mpr hsame, if_neg hsame⟩)

/-! ### Requests -/

/-- A request to a registry. -/
inductive Request where
  | register (f : Flow)
  | get (name : Option Text)
  | resolve (s : Step)
  | check (name : Option Text)
  | clear

/-- Whether a request only looks. -/
def Request.Looks : Request → Prop
  | .get _ | .resolve _ | .check _ => True
  | .register _ | .clear => False

/-- What a request makes of a registry, and its answer: the flow that was looked up, if any. -/
def perform (r : FlowRegistry) : Request → FlowRegistry × Except RegistryError (Option Flow)
  | .register f =>
    match r.register f with
    | .ok r' => (r', .ok none)
    | .error e => (r, .error e)
  | .get n => (r, (r.get n).map some)
  | .resolve s => (r, (r.resolve s).map some)
  | .check n => (r, (r.check n).map fun _ => none)
  | .clear => ({}, .ok none)

/-- A registry after a request. -/
def after (r : FlowRegistry) (q : Request) : FlowRegistry := (r.perform q).1

section After
variable {r r' : FlowRegistry} {f : Flow}

theorem after_of_ok (h : r.register f = .ok r') : r.after (.register f) = r' := by
  simp [after, perform, h]

theorem after_of_error {e : RegistryError} (h : r.register f = .error e) :
    r.after (.register f) = r := by
  simp [after, perform, h]

end After

/-- A new registry after some requests. -/
def run (requests : List Request) : FlowRegistry := requests.foldl after {}

/-- What a request makes of the row of flows that were to be registered. -/
def noted (log : List Flow) : Request → List Flow
  | .register f => log ++ [f]
  | .get _ | .resolve _ | .check _ => log
  | .clear => []

/-- The flows that were to be registered since the registry was empty last, in order. -/
def asked (requests : List Request) : List Flow := requests.foldl noted []

/-- The first flow of a row with a name. -/
def firstNamed (log : List Flow) (n : Option Text) : Option Flow := log.find? fun f => f.name = n

theorem firstNamed_concat (log : List Flow) (f : Flow) (n : Option Text) :
    firstNamed (log ++ [f]) n = (firstNamed log n).or (if f.name = n then some f else none) := by
  unfold firstNamed
  rw [List.find?_append]
  by_cases h : f.name = n
  · simp [h]
  · simp [h]

theorem firstNamed_eq_none {log : List Flow} {n : Option Text} :
    firstNamed log n = none ↔ ∀ f ∈ log, f.name ≠ n := by
  simp [firstNamed]

/-! ### What the names stand for -/

/-- **A registry is as its row says.** -/
structure Bound (r : FlowRegistry) (log : List Flow) : Prop where
  first : ∀ n, r.flows.get? n = firstNamed log n
  names : r.names = (log.map Flow.name).eraseDups
  distinct : r.flows.Distinct

theorem bound_new : Bound {} [] where
  first _ := rfl
  names := rfl
  distinct := .nil

section Bound
variable {r : FlowRegistry} {log : List Flow} (h : r.Bound log)
include h

theorem Bound.mem_names {n : Option Text} :
    n ∈ log.map Flow.name ↔ r.flows.get? n ≠ none := by
  rw [h.first, Ne, firstNamed_eq_none]
  simp

/-- A name that stands for a flow keeps it. -/
theorem Bound.again {f g : Flow} (hg : r.flows.get? f.name = some g) : r.Bound (log ++ [f]) where
  first n := by
    rw [firstNamed_concat, ← h.first]
    by_cases hn : f.name = n
    · rw [← hn, hg]
      rfl
    · rw [if_neg hn, Option.or_none]
  names := by
    have hmem : f.name ∈ log.map Flow.name := h.mem_names.mpr (by simp [hg])
    rw [List.map_append, List.map_singleton, eraseDups_concat, if_pos hmem]
    exact h.names
  distinct := h.distinct

/-- A name that is free gets the flow. -/
theorem Bound.insert {f : Flow} (hf : r.flows.get? f.name = none) :
    Bound ⟨r.flows.insert f.name f⟩ (log ++ [f]) where
  first n := by
    rw [Entries.get?_insert, firstNamed_concat, ← h.first]
    by_cases hn : f.name = n
    · rw [← hn, hf]
      simp
    · simp [hn]
  names := by
    have hmem : f.name ∉ log.map Flow.name := fun hm => h.mem_names.mp hm hf
    have hkey : r.flows.hasKey f.name = false := by
      rw [← Entries.isSome_get?, hf]
      rfl
    have hnames : Entries.keys r.flows = (log.map Flow.name).eraseDups := h.names
    show Entries.keys (r.flows.insert f.name f) = _
    rw [List.map_append, List.map_singleton, eraseDups_concat, if_neg hmem, ← hnames,
      Entries.keys_insert, hkey]
    rfl
  distinct := h.distinct.insert f.name f

/-- One request keeps it. -/
theorem Bound.after (q : Request) : (r.after q).Bound (noted log q) := by
  cases q with
  | clear => exact bound_new
  | get n => exact h
  | resolve s => exact h
  | check n => exact h
  | register f =>
    rcases register_cases r f with ⟨g, hg, -, hr⟩ | ⟨g, hg, -, hr⟩ | ⟨hfree, hr⟩
    · rw [after_of_ok hr]
      exact h.again hg
    · rw [after_of_error hr]
      exact h.again hg
    · rw [after_of_ok hr]
      exact h.insert hfree

theorem Bound.get_eq_ok_iff {n : Option Text} {f : Flow} :
    r.get n = .ok f ↔ firstNamed log n = some f := by
  rw [get_eq, h.first]
  cases firstNamed log n <;> simp

theorem Bound.get_eq_error_iff {n : Option Text} {e : RegistryError} :
    r.get n = .error e ↔ (∀ f ∈ log, f.name ≠ n) ∧ e = .notFound n := by
  rw [get_eq, h.first, ← firstNamed_eq_none]
  cases firstNamed log n <;> simp [eq_comm]

theorem Bound.register_eq_error_iff {f : Flow} {e : RegistryError} :
    r.register f = .error e ↔
      (∃ g, firstNamed log f.name = some g ∧ ¬ Alike g f) ∧ e = .conflict f.name := by
  rw [← h.first]
  rcases register_cases r f with ⟨g, hg, halike, hr⟩ | ⟨g, hg, halike, hr⟩ | ⟨hfree, hr⟩
  · simp [hr, hg, halike]
  · simp [hr, hg, halike, eq_comm]
  · simp [hr, hfree]

theorem Bound.after_register {f g : Flow} (hg : firstNamed log f.name = some g) :
    r.after (.register f) = r := by
  rw [← h.first] at hg
  rcases register_cases r f with ⟨-, -, -, hr⟩ | ⟨-, -, -, hr⟩ | ⟨hfree, -⟩
  · exact after_of_ok hr
  · exact after_of_error hr
  · rw [hfree] at hg
    cases hg

theorem Bound.nodup_names : r.names.Nodup :=
  h.distinct.imp fun hne heq => by simp [heq] at hne

end Bound

/-- A run keeps it. -/
theorem bound_run (requests : List Request) : (run requests).Bound (asked requests) := by
  induction requests using List.reverseRecOn with
  | nil => exact bound_new
  | append_singleton requests q ih =>
    unfold run asked
    rw [List.foldl_concat, List.foldl_concat]
    exact ih.after q

theorem after_of_looks {q : Request} (h : q.Looks) (r : FlowRegistry) : r.after q = r := by
  cases q with
  | register f => exact h.elim
  | clear => exact h.elim
  | get n => rfl
  | resolve s => rfl
  | check n => rfl

/-- **A name stands for the first flow that was to be registered under it** since the registry was
empty last. Looking it up fails exactly if there is none, and a reference to it is resolved by it. A
flow is refused exactly if its name stands for a flow that is not alike; whether it is alike or not,
a name that stands for a flow keeps it, and the registry stays as it was. The names are those of the
flows that were to be registered, each once, in order. A request that only looks changes nothing. -/
theorem first_bound (requests : List Request) :
    (∀ n f, (run requests).get n = .ok f ↔ firstNamed (asked requests) n = some f) ∧
    (∀ n e, (run requests).get n = .error e ↔
      (∀ f ∈ asked requests, f.name ≠ n) ∧ e = .notFound n) ∧
    (∀ s n, s.kind = .reference n → (run requests).resolve s = (run requests).get n) ∧
    (∀ f e, (run requests).register f = .error e ↔
      (∃ g, firstNamed (asked requests) f.name = some g ∧ ¬ Alike g f) ∧
        e = .conflict f.name) ∧
    (∀ f g, firstNamed (asked requests) f.name = some g →
      run (requests ++ [.register f]) = run requests) ∧
    (run requests).names = ((asked requests).map Flow.name).eraseDups ∧
    (run requests).names.Nodup ∧
    ∀ q : Request, q.Looks → run (requests ++ [q]) = run requests := by
  have h := bound_run requests
  have hconcat : ∀ q, run (requests ++ [q]) = (run requests).after q := by
    intro q
    unfold run
    rw [List.foldl_concat]
  refine ⟨fun n f => h.get_eq_ok_iff, fun n e => h.get_eq_error_iff, fun s n hs => ?_,
    fun f e => h.register_eq_error_iff, fun f g hg => ?_, h.names, h.nodup_names, fun q hq => ?_⟩
  · unfold resolve
    rw [hs]
  · rw [hconcat]
    exact h.after_register hg
  · rw [hconcat]
    exact after_of_looks hq _

end Stepwise.FlowRegistry
