import Stepwise.Distinct
import Stepwise.Limits
import Stepwise.Value.Display
import Stepwise.Value.Fault

/-!
# Steps

A step is one unit of work towards a goal. It reads some variables and writes others, and names of
variables are kept as a list without repetition in the order in which they were first given. A
reference step stands for a whole flow. `Step.build` makes a step from loosely typed parts and
refuses the variables that belong to the engine.
-/

namespace Stepwise

/-! ### Lists of names -/

/-- The elements of a list as scalars, unless one of them has parts. -/
def scalarsOf : List Value → Except Value.Fault (List Scalar)
  | [] => .ok []
  | .scalar s :: xs => (scalarsOf xs).map (s :: ·)
  | x :: _ => .error (.unhashable x.typeName)

/-- The names that a value gives: none for the null value, one for a text, the elements of a list
and the keys of a mapping. -/
def namesOf : Value → Except Value.Fault (List Scalar)
  | .null => .ok []
  | .text t => .ok [.text t]
  | .list xs | .tuple xs | .set xs => (scalarsOf xs).map distinct
  | .dict es => .ok (distinct (Entries.keys es))
  | v => .error (.notIterable v.typeName)

/-- The variables that belong to the engine, which no step may name. -/
def reservedVariables : List String := ["_chatHistory", "_chatInput"]

/-- Whether a name is reserved. -/
def isReserved (n : Scalar) : Bool := reservedVariables.any fun v => n == .text v

/-! ### Steps and how they are built -/

/-- A step of its own, or one that stands for the flow with a name. -/
inductive Step.Kind where
  | plain
  | reference (flowName : Option Text)
  deriving DecidableEq, Repr

/-- One unit of work. Without `plugins` it may use every available one. -/
structure Step where
  goal : Option Text
  requires : List Scalar := []
  provides : List Scalar := []
  passthrough : List Scalar := []
  completion : Completion := .once
  startingMessage : Option Text := none
  transitionMessage : Option Text := none
  plugins : Option (List Scalar) := none
  kind : Step.Kind := .plain

namespace Step

/-- The transition message of a step that gives none. -/
def defaultTransitionMessage : String := "Did you want to try the previous step again?"

/-- The parts that a step is built from, with values of any type where names and a policy belong. A
reference need not give a goal. -/
structure Parts where
  goal : Option Text := some []
  requires : Value := .null
  provides : Value := .null
  passthrough : Value := .null
  completion : Value := .completion .once
  startingMessage : Option Text := none
  transitionMessage : Option Text := some defaultTransitionMessage
  plugins : Value := .null
  kind : Kind := .plain

/-- Why a step cannot be built. -/
inductive BuildError where
  /-- a list of names holds reserved ones -/
  | reserved (names : List Scalar)
  /-- a value is no list of names -/
  | refused (fault : Value.Fault)
  /-- a value is no completion policy -/
  | unknownCompletion (v : Value)
  /-- a value is no completion policy and cannot be shown -/
  | unshowableCompletion (hindrance : Value.Hindrance)

/-- The text of an error. -/
def BuildError.message : BuildError → Text
  | reserved names =>
    "Invalid arguments: " ++ List.intercalate ("," : Text) (names.map fun n => (Value.scalar n).plain)
  | refused fault => fault.message
  | unknownCompletion v => v.display ++ " is not a valid CompletionType"
  | unshowableCompletion hindrance => hindrance.message

/-- The policy that a value stands for. -/
def completionOf [Limits] (v : Value) : Except BuildError Completion :=
  match v.string?.bind Completion.ofSpelling? with
  | some c => .ok c
  | none =>
    match v.hindrance? Limits.showing with
    | none => .error (.unknownCompletion v)
    | some hindrance => .error (.unshowableCompletion hindrance)

/-- The names that a value gives, none of them reserved. -/
def variablesOf (v : Value) : Except BuildError (List Scalar) := do
  let names ← (namesOf v).mapError .refused
  let reserved := names.filter isReserved
  if reserved.isEmpty then pure names else throw (.reserved reserved)

/-- The plugins that a value gives; the null value leaves them open. -/
def pluginsOf : Value → Except BuildError (Option (List Scalar))
  | .null => .ok none
  | v => (namesOf v).map some |>.mapError .refused

/-- Builds a step. The parts are checked in the order in which they stand here, the policy last. -/
def build [Limits] (p : Parts) : Except BuildError Step := do
  let requires ← variablesOf p.requires
  let provides ← variablesOf p.provides
  let passthrough ← variablesOf p.passthrough
  let plugins ← pluginsOf p.plugins
  let completion ← completionOf p.completion
  pure { p with requires, provides, passthrough, completion, plugins }

/-- Whether a step reads a variable that another one writes. -/
def dependsOn (s t : Step) : Bool := s.requires.any fun v => t.provides.contains v

/-- Whether a step stands for another flow. -/
def isReference (s : Step) : Bool :=
  match s.kind with
  | .plain => false
  | .reference _ => true

/-- Whether two steps are of one kind and equal in all their parts. -/
def same (s t : Step) : Bool :=
  s.kind == t.kind && s.goal == t.goal && s.requires == t.requires &&
    s.provides == t.provides && s.passthrough == t.passthrough &&
    s.completion == t.completion && s.startingMessage == t.startingMessage &&
    s.transitionMessage == t.transitionMessage && s.plugins == t.plugins

end Step

end Stepwise
