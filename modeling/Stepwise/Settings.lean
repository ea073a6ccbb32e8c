import Stepwise.Step.Basic
import Stepwise.Value.Equality

/-!
# Settings

What an engine is told about models, functions and limits: the preferred service or model of a
function, the description of a function and of its parameters, and the limits under which a flow
runs.
-/

namespace Stepwise

/-- Settings for a preferred service or model. -/
structure ModelSettings where
  serviceId : Option String := none
  modelId : Option String := none
  extensionData : Value := .dict []

/-- What is known about a parameter of a function. -/
structure ParameterView where
  name : Option String
  description : Option String := some ""
  defaultValue : Option String := none
  type : Option String := some "string"
  isRequired : Value := .bool false

/-- What is known about a function of a plugin. -/
structure FunctionView where
  name : Option String
  pluginName : Option String
  description : Option String := some ""
  parameters : List ParameterView := []
  modelSettings : Option (List ModelSettings) := none

/-- Whether two rows have the same length and equal elements place by place. -/
def sameRows {α : Type} (same : α → α → Bool) : List α → List α → Bool
  | [], [] => true
  | x :: xs, y :: ys => same x y && sameRows same xs ys
  | _, _ => false

/-- Whether two settings are equal. -/
def ModelSettings.same (s t : ModelSettings) : Bool :=
  s.serviceId == t.serviceId && s.modelId == t.modelId && s.extensionData.same t.extensionData

/-- Whether two parameters are described in the same way. -/
def ParameterView.same (p q : ParameterView) : Bool :=
  p.name == q.name && p.description == q.description && p.defaultValue == q.defaultValue &&
    p.type == q.type && p.isRequired.same q.isRequired

/-- Whether two functions are described in the same way. -/
def FunctionView.same (f g : FunctionView) : Bool :=
  f.name == g.name && f.pluginName == g.pluginName && f.description == g.description &&
    sameRows ParameterView.same f.parameters g.parameters &&
    match f.modelSettings, g.modelSettings with
    | none, none => true
    | some ss, some ts => sameRows ModelSettings.same ss ts
    | _, _ => false

/-! ### The limits of a run -/

/-- The settings of an engine as they are given. Numbers may be of any type. -/
structure EngineSettings where
  excludedPlugins : List String := []
  excludedFunctions : List String := []
  maxTokens : Value := .int 1024
  maxVariableLength : Value := .int 400
  maxStepIterations : Value := .int 10
  minIterationTime : Value := .int 0
  enableAutoTermination : Value := .bool false
  requestSettings : Option ModelSettings := none

namespace EngineSettings

/-- Why settings are refused. -/
inductive Fault where
  | tooFewIterations (n : Value)
  | negativeTime
  | notNumber (f : Value.Fault)

/-- The text of a fault. -/
def Fault.message : Fault → Text
  | tooFewIterations n => "max_step_iterations must be at least 1, got " ++ n.plain
  | negativeTime => "min_iteration_time_ms cannot be negative"
  | notNumber f => f.message

/-- Checks the limits: a step must be allowed to run once, and no time may be negative. -/
def check (s : EngineSettings) : Except Fault Unit := do
  if ← (s.maxStepIterations.lessThan (.int 1)).mapError .notNumber then
    throw (.tooFewIterations s.maxStepIterations)
  if ← (s.minIterationTime.lessThan (.int 0)).mapError .notNumber then throw .negativeTime

/-- A list of names as a set: in the order of code points and without repetition. -/
def asSet (names : List String) : List String :=
  distinct (names.mergeSort fun a b => decide (a ≤ b))

/-- The settings with these parts, if the limits are allowed. -/
def build (s : EngineSettings) : Except Fault EngineSettings := do
  s.check
  pure { s with
    excludedPlugins := asSet s.excludedPlugins
    excludedFunctions := asSet s.excludedFunctions }

/-- How many times a step may run. -/
def iterationLimit (s : EngineSettings) (step : Step) : Value :=
  if step.completion.isRepeatable then s.maxStepIterations else .int 1

/-- Whether a plugin, or one of its functions, is hidden from planning. -/
def isExcluded (s : EngineSettings) (plugin : Option String) (function : Option String) : Bool :=
  plugin.any s.excludedPlugins.contains || function.any s.excludedFunctions.contains

end EngineSettings

end Stepwise
