import Stepwise.Json.Writer
import Stepwise.Progress.Basic

/-!
# Progress as text

Progress is written as JSON text and read back. A member that is missing has the value of fresh
progress; one that is present is taken as it is, except that the members for the steps must be
objects and a status must have one of the three spellings. Progress is copied before it is written,
which is refused where it goes too deep to be copied.
-/

namespace Stepwise

namespace StepProgress

/-- The progress of a step as an object. -/
def toValue (s : StepProgress) : Value :=
  .dict [(.text "status", .text s.status.spelling), (.text "iterations", s.iterations),
    (.text "output", s.output)]

end StepProgress

namespace Progress

/-- Why a text holds no progress. -/
inductive ReadError where
  | text (e : Json.ReadError)
  | shape (f : Value.Fault)
  | status (v : Value)

/-- The text of an error. -/
def ReadError.message : ReadError → String
  | text e => e.message
  | shape f => f.message
  | status v => v.display ++ " is not a valid StepStatus"

/-- The progress as an object. -/
def toValue (p : Progress) : Value :=
  .dict [(.text "current_step_index", p.current), (.text "variables", p.bindings),
    (.text "step_states", .dict (p.steps.map fun (k, s) => (.text k, s.toValue)))]

/-- Why progress cannot be written. -/
inductive WriteError where
  | text (e : Json.WriteError)
  /-- the progress cannot be copied -/
  | tooDeep
  deriving DecidableEq, Repr

/-- The text of an error. -/
def WriteError.message : WriteError → String
  | text e => e.message
  | tooDeep => "maximum recursion depth exceeded"

/-- The progress as a JSON text. -/
def toText [Limits] (p : Progress) : Except WriteError String :=
  if Limits.copies p.toValue then (Json.write true p.toValue).mapError .text
  else .error .tooDeep

/-- The status that a value stands for. -/
def statusOf (v : Value) : Except ReadError Status :=
  match v.string?.bind Status.ofSpelling? with
  | some t => .ok t
  | none => .error (.status v)

/-- What an object holds under a name, or what fresh progress has there. -/
def member (es : Entries Scalar Value) (name : String) (fresh : Value) : Value :=
  (Value.field? es name).getD fresh

/-- The progress of a step that an object describes. -/
def stepOfValue : Value → Except ReadError StepProgress
  | .dict es => do
    let fresh : StepProgress := {}
    let status ← statusOf (member es "status" (.text fresh.status.spelling))
    pure ⟨status, member es "iterations" fresh.iterations, member es "output" fresh.output⟩
  | v => .error (.shape (.noMember v.typeName "get"))

/-- The name of a member as a text. -/
def nameOf (k : Scalar) : Text := (Value.scalar k).plain

/-- The progress of the steps that the members of an object describe. -/
def stepsOfMembers : List (Scalar × Value) → Except ReadError (Entries Text StepProgress)
  | [] => .ok []
  | (k, v) :: es => do
    let s ← stepOfValue v
    pure ((nameOf k, s) :: (← stepsOfMembers es))

/-- The progress that an object describes. -/
def ofValue : Value → Except ReadError Progress
  | .dict es => do
    let fresh : Progress := {}
    let current := member es "current_step_index" fresh.current
    let bindings := member es "variables" fresh.bindings
    match member es "step_states" (.dict []) with
    | .dict members => do pure ⟨current, bindings, ← stepsOfMembers members⟩
    | v => throw (.shape (.noMember v.typeName "items"))
  | v => .error (.shape (.noMember v.typeName "get"))

/-- The progress that a JSON text holds. -/
def ofText [Limits] (text : Text) : Except ReadError Progress := do
  ofValue (← (Json.read text).mapError .text)

end Progress

end Stepwise
