import Stepwise.Flow.Validation

/-!
# A registry of flows

Flows by name. The first flow with a name is kept: an equal one may be registered again, a
different one is refused. A reference step is resolved by the name it gives, and a registered flow
is fit to be run when it is well formed and all its references resolve.
-/

namespace Stepwise

/-- Flows by name, in the order in which the names were first registered. -/
structure FlowRegistry where
  flows : Entries (Option Text) Flow := []

/-- A reference to a flow that is not registered: the goal of the step and the name it gives. -/
structure Unresolved where
  goal : Option Text
  flowName : Option Text
  deriving DecidableEq, Repr

/-- Why a registry refuses a request. -/
inductive RegistryError where
  | conflict (name : Option Text)
  | notFound (name : Option Text)
  /-- the step to be resolved is no reference -/
  | notReference
  | violation (v : Violation)
  | unresolved (flow : Option Text) (steps : List Unresolved)
  deriving DecidableEq, Repr

namespace FlowRegistry

/-- The text for a flow that is not found. -/
def notFoundText (name : Option Text) : Text := "Flow '" ++ name.getD "None" ++ "' not found"

/-- The line for a reference that does not resolve. -/
def unresolvedLine (u : Unresolved) : Text :=
  let step := if u.goal.getD [] ≠ [] then u.goal else u.flowName
  "  - Step '" ++ plainText step ++ "' references unknown flow '" ++ plainText u.flowName ++ "'"

end FlowRegistry

/-- The text of an error. -/
def RegistryError.message : RegistryError → Text
  | conflict name => "Conflicting registration for flow '" ++ plainText name ++ "'"
  | notFound name => Text.quoted (FlowRegistry.notFoundText name)
  | notReference => "'FlowStep' object has no attribute 'flow_name'"
  | violation v => v.message
  | unresolved flow steps =>
    "Flow '" ++ plainText flow ++ "' has invalid references:\n" ++
      List.intercalate ("\n" : Text) (steps.map FlowRegistry.unresolvedLine)

namespace FlowRegistry

variable (r : FlowRegistry)

/-- Registers a flow under its name. -/
def register (f : Flow) : Except RegistryError FlowRegistry :=
  match r.flows.get? f.name with
  | some g => if g.same f then .ok r else .error (.conflict f.name)
  | none => .ok ⟨r.flows.insert f.name f⟩

/-- The flow with a name. -/
def get (name : Option Text) : Except RegistryError Flow :=
  match r.flows.get? name with
  | some f => .ok f
  | none => .error (.notFound name)

/-- The names of the flows. -/
def names : List (Option Text) := r.flows.keys

/-- The flow that a step stands for. -/
def resolve (s : Step) : Except RegistryError Flow :=
  match s.kind with
  | .reference flowName => r.get flowName
  | .plain => .error .notReference

/-- The reference of a step that does not resolve. -/
def unresolved? (s : Step) : Option Unresolved :=
  match s.kind with
  | .reference flowName =>
    if r.flows.hasKey flowName then none else some ⟨s.goal, flowName⟩
  | .plain => none

/-- Checks the references of a flow that has been found. -/
def checkReferences (name : Option Text) (f : Flow) : Except RegistryError Unit :=
  let missing := f.steps.filterMap r.unresolved?
  if missing.isEmpty then .ok () else .error (.unresolved name missing)

/-- Checks the flow with a name and its references. -/
def check (name : Option Text) : Except RegistryError Unit := do
  let f ← r.get name
  f.check.mapError .violation
  r.checkReferences name f

end FlowRegistry

end Stepwise
