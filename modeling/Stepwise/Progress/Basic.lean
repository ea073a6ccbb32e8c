import Stepwise.Limits
import Stepwise.Value.Display
import Stepwise.Value.Fault

/-!
# The progress of a flow

How far a flow has come: which step is next, the variables, and for each step its status, the
number of its runs and what they put out. Progress may have been read from a text, so counts,
outputs and variables can be of any type; where one is of the wrong type an operation stops with a
fault, and what it changed before stays changed.
-/

namespace Stepwise

/-- How far a step has come. -/
inductive Status where
  | notStarted
  | inProgress
  | completed
  deriving DecidableEq, Repr

namespace Status

/-- All statuses. -/
def all : List Status := [notStarted, inProgress, completed]

/-- The spelling of a status in texts. -/
def spelling : Status → String
  | notStarted => "NotStarted"
  | inProgress => "InProgress"
  | completed => "Completed"

/-- The status with a spelling. -/
def ofSpelling? (s : String) : Option Status := all.find? fun t => t.spelling == s

theorem ofSpelling?_spelling (t : Status) : ofSpelling? t.spelling = some t := by
  cases t <;> decide

theorem spelling_of_ofSpelling? {s : String} {t : Status} (h : ofSpelling? s = some t) :
    t.spelling = s := by
  simpa using List.find?_some h

end Status

/-- The progress of one step. -/
structure StepProgress where
  status : Status := .notStarted
  /-- the number of runs -/
  iterations : Value := .int 0
  /-- for each name the values that the runs put out -/
  output : Value := .dict []

namespace StepProgress

/-- Appends a value to the list under a name of an output, which is begun if it is not there. -/
def appendOutput (output : Value) (name : Scalar) (v : Value) : Except Value.Fault Value :=
  match output with
  | .dict es =>
    match Entries.get? name es with
    | none => .ok (.dict (Entries.insert name (.list [v]) es))
    | some (.list xs) => .ok (.dict (Entries.insert name (.list (xs ++ [v])) es))
    | some w => .error (.noMember w.typeName "append")
  | w => .error (.noMember w.typeName "setdefault")

/-- Appends values one after the other. -/
def appendAll (s : StepProgress) : List (Scalar × Value) → StepProgress × Except Value.Fault Unit
  | [] => (s, .ok ())
  | (name, v) :: rest =>
    match appendOutput s.output name v with
    | .ok output => appendAll { s with output } rest
    | .error f => (s, .error f)

/-- Records a run that has ended: counts it, and appends what it put out. -/
def record (s : StepProgress) (values : Value) : StepProgress × Except Value.Fault Unit :=
  match s.iterations.succ with
  | .error f => (s, .error f)
  | .ok iterations =>
    let s := { s with iterations, status := .inProgress }
    match values with
    | .dict es => s.appendAll es
    | w => (s, .error (.noMember w.typeName "items"))

/-- Whether a step needs no further run: it has been marked as completed, or its policy is satisfied
and allows no other run. -/
def isComplete (s : StepProgress) (c : Completion) (limit : Value) : Except Value.Fault Bool := do
  if s.status = .completed then pure true
  else if ← c.satisfies s.iterations then
    pure !(← c.allowsRun s.iterations limit)
  else pure false

end StepProgress

/-- The progress of a flow. -/
structure Progress where
  /-- the index of the step that is next -/
  current : Value := .int 0
  /-- the values of the variables by their names -/
  bindings : Value := .dict []
  /-- the progress of the steps, by the index of the step as a text -/
  steps : Entries Text StepProgress := []

namespace Progress

/-- The key of a step: its index as a text. A number with too many digits has none. -/
def stepKey [Limits] (index : Value) : Except Value.Hindrance Text :=
  match index.hindrance? Limits.showing with
  | some hindrance => .error hindrance
  | none => .ok index.plain

/-- The progress of a step; one that has no progress yet has not started. -/
def step (p : Progress) (key : Text) : StepProgress := (p.steps.get? key).getD {}

/-- Puts the progress of a step in place. -/
def setStep (p : Progress) (key : Text) (s : StepProgress) : Progress :=
  { p with steps := p.steps.insert key s }

/-- The progress in which a step has at least not started. -/
def touch (p : Progress) (key : Text) : Progress := p.setStep key (p.step key)

/-- Records a run of a step. -/
def record (p : Progress) (key : Text) (values : Value) :
    Progress × Except Value.Fault Unit :=
  let (s, outcome) := (p.step key).record values
  (p.setStep key s, outcome)

/-- Why a run of the step with an index is not recorded. -/
inductive RecordError where
  /-- the index has no text that could be the key of the step -/
  | noKey (hindrance : Value.Hindrance)
  | refused (fault : Value.Fault)
  deriving DecidableEq, Repr

/-- The text of an error. -/
def RecordError.message : RecordError → String
  | noKey hindrance => hindrance.message
  | refused fault => fault.message

/-- Records a run of the step with an index. -/
def recordAt [Limits] (p : Progress) (index : Value) (values : Value) :
    Progress × Except RecordError Unit :=
  match stepKey index with
  | .error hindrance => (p, .error (.noKey hindrance))
  | .ok key =>
    let (p, outcome) := p.record key values
    (p, outcome.mapError .refused)

/-- Marks a step with a status. -/
def mark (p : Progress) (key : Text) (status : Status) : Progress :=
  p.setStep key { p.step key with status }

/-- Gives a variable a value. -/
def setVariable (p : Progress) (name : Text) (v : Value) : Except Value.Fault Progress :=
  match p.bindings with
  | .dict es => .ok { p with bindings := .dict (Entries.insert (.text name) v es) }
  | .list _ => .error .listIndexedByText
  | w => .error (.noItemAssignment w.typeName)

end Progress

end Stepwise
