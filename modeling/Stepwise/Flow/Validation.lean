import Stepwise.Flow.Basic
import Stepwise.Text.Blank

/-!
# Well-formed flows

What makes a flow fit to be run. The checks are made in a fixed order and the first violation is the
answer: the goal, the presence of steps, the order of the steps, the reference steps, the starting
messages and the variables that are passed through. Each check names the first offending step.
-/

namespace Stepwise

/-- What is wrong with a flow. -/
inductive Violation where
  | noGoal (flowName : Option Text)
  | noSteps
  | notOrdered (cycle : Cycle)
  | unnamedReference
  | referenceRequires
  | referenceProvides
  | referencePlugins
  | noStartingMessage (goal : Option Text) (completion : Completion)
  | passthrough (goal : Option Text) (completion : Completion)
  deriving DecidableEq, Repr

/-- The text of a violation. -/
def Violation.message : Violation → Text
  | noGoal flowName => "Flow '" ++ plainText flowName ++ "' must have a goal."
  | noSteps => "Flow must contain at least one flow step."
  | notOrdered _ => "Flow steps must be a partial order set."
  | unnamedReference => "Reference flow step must name the flow it references."
  | referenceRequires => "Reference flow step cannot have any direct requirements."
  | referenceProvides => "Reference flow step cannot have any direct provides."
  | referencePlugins => "Reference flow step cannot have any direct plugins."
  | noStartingMessage goal completion =>
    "Missing starting message for step=" ++ plainText goal ++ " with completion type=" ++
      completion.spelling
  | passthrough goal completion =>
    "step=" ++ plainText goal ++ " with completion type=" ++ completion.spelling ++
      " cannot have passthrough variables as that is only applicable " ++
      "for the AtLeastOnce or ZeroOrMore completion types"

/-- The cycle that a violation comes from, if it comes from one. -/
def Violation.cause? : Violation → Option Cycle
  | notOrdered cycle => some cycle
  | _ => none

/-- Whether a text is missing or blank. -/
def missingOrBlank : Option Text → Bool
  | none => true
  | some t => decide (Text.AllBlank t)

namespace Step

/-- What is wrong with a reference step: it must name its flow and may have no requirements, no
provided variables and no plugins of its own. -/
def referenceViolation? (s : Step) : Option Violation :=
  match s.kind with
  | .plain => none
  | .reference flowName =>
    if missingOrBlank flowName then some .unnamedReference
    else if !s.requires.isEmpty then some .referenceRequires
    else if !s.provides.isEmpty then some .referenceProvides
    else if !(s.plugins.getD []).isEmpty then some .referencePlugins
    else none

/-- What is wrong with the starting message: a step that may be skipped needs one. -/
def messageViolation? (s : Step) : Option Violation :=
  if s.completion.requiresStartingMessage && (s.startingMessage.getD []).isEmpty then
    some (.noStartingMessage s.goal s.completion)
  else none

/-- What is wrong with the variables passed through: only a step that repeats may have some. -/
def passthroughViolation? (s : Step) : Option Violation :=
  if !s.passthrough.isEmpty && !s.completion.allowsPassthrough then
    some (.passthrough s.goal s.completion)
  else none

end Step

namespace Flow

variable (f : Flow)

/-- The first violation of a flow. -/
def violation? : Option Violation :=
  (if missingOrBlank f.goal then some (.noGoal f.name) else none) <|>
  (if f.steps.isEmpty then some .noSteps else none) <|>
  (match f.sorted with
    | .error cycle => some (.notOrdered cycle)
    | .ok _ => none) <|>
  f.steps.findSome? Step.referenceViolation? <|>
  f.steps.findSome? Step.messageViolation? <|>
  f.steps.findSome? Step.passthroughViolation?

/-- Checks a flow. -/
def check : Except Violation Unit :=
  match f.violation? with
  | some v => .error v
  | none => .ok ()

end Flow

end Stepwise
