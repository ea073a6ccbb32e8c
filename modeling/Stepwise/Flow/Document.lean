import Stepwise.Flow.Basic
import Stepwise.Value.Extent

/-!
# Flow documents

Flows and steps read from mappings. A step's mapping may have the keys `goal`, `requires`,
`provides`, `passthrough`, `completionType`, `startingMessage`, `transitionMessage` and `plugins`,
and a key `flowName` makes it a reference; a flow's mapping may have `name`, `goal` and `steps`.
Other keys are ignored. The first part of the wrong type is named in the error.
-/

namespace Stepwise.Document

/-- Why a document holds no flow. -/
inductive Fault where
  | notMapping (subject type : String)
  | notText (key : String) (place : Text) (type : String)
  | notNames (key : String) (place : Text)
  | unknownCompletion (v : Value) (goal : Text)
  | stepsNotList
  | step (e : Step.BuildError)

/-- The text of a fault. -/
def Fault.message : Fault → Text
  | notMapping subject type => subject ++ " must be a mapping, got " ++ type
  | notText key place type =>
    "'" ++ key ++ "' of " ++ place ++ " must be a string, got " ++ type
  | notNames key place => "'" ++ key ++ "' of " ++ place ++ " must be a list of strings"
  | unknownCompletion v goal =>
    "Unknown completion type " ++ v.display ++ " for step=" ++ goal ++ "; expected one of " ++
      ", ".intercalate (Completion.all.map Completion.spelling)
  | stepsNotList => "Flow 'steps' must be a list"
  | step e => e.message

/-- Whether a fault is a validation error; what keeps its message from being written is none. -/
def Fault.isValidation : Fault → Bool
  | step (.reserved _) => true
  | step _ => false
  | _ => true

/-- The text under a key, which may be missing or null. -/
def textField (es : Entries Scalar Value) (key : String) (place : Text) (default : Option Text) :
    Except Fault (Option Text) :=
  match Value.field? es key with
  | none => .ok default
  | some .null => .ok none
  | some v =>
    match v.text? with
    | some s => .ok (some s)
    | none => .error (.notText key place v.typeName)

/-- Whether a value is a text. -/
def isText (v : Value) : Bool := v.text?.isSome

/-- The names under a key: a text, a list of texts, or the null value where the key is missing. -/
def namesField (es : Entries Scalar Value) (key : String) (place : Text) : Except Fault Value :=
  match Value.field? es key with
  | none => .ok .null
  | some (.list xs) => if xs.all isText then .ok (.list xs) else .error (.notNames key place)
  | some v => if v.isNull || isText v then .ok v else .error (.notNames key place)

/-- Names, with none in place of an empty text. -/
def orNone (v : Value) : Value := if v.isTruthy then v else .null

/-- The policy under the key `completionType`, by default one run. -/
def completionField [Limits] (es : Entries Scalar Value) (goal : Text) : Except Fault Completion :=
  match Value.field? es "completionType" with
  | none | some .null => .ok .once
  | some v => (Step.completionOf v).mapError fun
    | .unknownCompletion v => .unknownCompletion v goal
    | e => .step e

/-- The kind of a step: a reference if there is a key `flowName`. -/
def kindField (es : Entries Scalar Value) (place : Text) : Except Fault Step.Kind :=
  if (Value.field? es "flowName").isSome then do
    pure (.reference (some ((← textField es "flowName" place none).getD [])))
  else pure .plain

/-- The step that a mapping describes. -/
def step [Limits] : Value → Except Fault Step
  | .dict es => do
    let goal := (← textField es "goal" "flow step" none).getD []
    let place : Text := "step=" ++ goal
    let requires ← namesField es "requires" place
    let provides ← namesField es "provides" place
    let passthrough ← namesField es "passthrough" place
    let completion ← completionField es goal
    let startingMessage ← textField es "startingMessage" place none
    let transitionMessage ←
      textField es "transitionMessage" place (some Step.defaultTransitionMessage)
    let plugins ← namesField es "plugins" place
    let kind ← kindField es place
    let parts : Step.Parts := {
      goal := some goal
      requires := orNone requires
      provides := orNone provides
      passthrough := orNone passthrough
      completion := .completion completion
      startingMessage
      transitionMessage
      plugins
      kind }
    (Step.build parts).mapError .step
  | v => .error (.notMapping "Flow step" v.typeName)

/-- The values that the key `steps` lists; a missing or empty value lists none. -/
def stepsField (es : Entries Scalar Value) : Except Fault (List Value) :=
  match Value.field? es "steps" with
  | none => .ok []
  | some v =>
    if v.isTruthy then
      match v with
      | .list xs => .ok xs
      | _ => .error .stepsNotList
    else .ok []

/-- The flow that a mapping describes. -/
def flow [Limits] : Value → Except Fault Flow
  | .dict es => do
    let items ← stepsField es
    let name := (← textField es "name" "flow" none).getD []
    let goal := (← textField es "goal" "flow" none).getD []
    let steps ← items.mapM step
    pure (Flow.ofSteps (some name) (some goal) steps)
  | v => .error (.notMapping "Flow definition" v.typeName)

/-! ### What is looked at -/

/-- The keys that are looked at in the mapping of a flow. -/
def flowKeys : List Text := ["name", "goal", "steps"]

/-- The keys under which a step has names. -/
def namesKeys : List Text := ["requires", "provides", "passthrough", "plugins"]

/-- The keys that are looked at in the mapping of a step. -/
def stepKeys : List Text :=
  "goal" :: "completionType" :: "startingMessage" :: "transitionMessage" :: "flowName" :: namesKeys

/-- Whether a key is one of some names. -/
def isOneOf (names : List Text) : Scalar → Bool
  | .text t => names.contains t
  | _ => false

/-- What is looked at in the mapping of a step: the names one by one, and of other values no parts,
unless what stands for the policy is to be shown. -/
def stepExtent (shown : Bool) : Extent :=
  .members (isOneOf stepKeys) fun k =>
    if isOneOf namesKeys k then .elements fun _ => .outline
    else if shown && isOneOf ["completionType"] k then .whole
    else .outline

/-- What is looked at in the mapping of a flow: each step, and of other values no parts. In the step
at the place `shown` what stands for the policy is to be shown. -/
def flowExtent (shown : Option Nat) : Extent :=
  .members (isOneOf flowKeys) fun k =>
    if isOneOf ["steps"] k then .elements fun n => stepExtent (shown == some n) else .outline

/-- Whether a fault shows what stands for a policy. -/
def Fault.showsCompletion : Fault → Bool
  | unknownCompletion _ _ | step (.unshowableCompletion _) => true
  | _ => false

/-- The place of the first step that is refused. -/
def refusedPlace? [Limits] : Value → Option Nat
  | .dict es =>
    match stepsField es with
    | .ok items => items.findIdx? fun v => !(step v).isOk
    | .error _ => none
  | _ => none

/-- The flow that data describe. They are looked at without the parts of the policies; where one of
these proves to be none, it is looked at again with its parts, since the error shows them. -/
def flowWithin [Limits] (data : Extent → Value) : Except Fault Flow :=
  let v := data (flowExtent none)
  match flow v with
  | .ok f => .ok f
  | .error e => if e.showsCompletion then flow (data (flowExtent (refusedPlace? v))) else .error e

end Stepwise.Document
