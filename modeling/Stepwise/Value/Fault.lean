import Stepwise.Value.Basic

/-!
# Operations that a value may refuse

Where data of any shape is used as a number, a collection or a mapping, the value may be of the
wrong type. A fault says which use was refused and names the types concerned. Main operations:
adding one, and comparing with `<` and `≥`.
-/

namespace Stepwise

/-- A use of a value that its type does not allow. -/
inductive Value.Fault where
  /-- one is added to a value that is no number and no row -/
  | notAdded (type : String)
  /-- one is added to a text, a row of bytes or a row of values -/
  | notJoined (type : String)
  | notCompared (operator left right : String)
  | noMember (type name : String)
  | notIterable (type : String)
  | unhashable (type : String)
  | noItemAssignment (type : String)
  /-- a list is indexed by a name -/
  | listIndexedByText
  deriving DecidableEq, Repr

namespace Value

/-- The text of a fault. -/
def Fault.message : Fault → String
  | notAdded type =>
    "unsupported operand type(s) for +=: " ++ "'" ++ type ++ "'" ++ " and 'int'"
  | notJoined type =>
    if type = "bytes" then "can't concat int to bytes"
    else if type = "list" then "'int' object is not iterable"
    else "can only concatenate " ++ type ++ " (not \"int\") to " ++ type
  | notCompared operator left right =>
    "'" ++ operator ++ "' not supported between instances of '" ++ left ++ "' and '" ++ right ++ "'"
  | noMember type name => "'" ++ type ++ "' object has no attribute '" ++ name ++ "'"
  | notIterable type => "'" ++ type ++ "' object is not iterable"
  | unhashable type => "unhashable type: '" ++ type ++ "'"
  | noItemAssignment type => "'" ++ type ++ "' object does not support item assignment"
  | listIndexedByText => "list indices must be integers or slices, not str"

/-- A value with one added to it. -/
def succ : Value → Except Fault Value
  | bool b => .ok (int (if b then 2 else 1))
  | int i => .ok (int (i + 1))
  | float x => .ok (float (x + 1))
  | completion _ | text _ => .error (.notJoined "str")
  | scalar (.bytes _) => .error (.notJoined "bytes")
  | list _ | again false => .error (.notJoined "list")
  | tuple _ => .error (.notJoined "tuple")
  | v => .error (.notAdded v.typeName)

/-- Where a number lies among the exact numbers and the infinities. -/
inductive Position where
  | bottom
  | exactly (r : Rat)
  | top
  | nowhere

/-- The position of a value that is a number. -/
def position? : Value → Option Position
  | scalar s =>
    match s with
    | .bool _ | .int _ | .float _ =>
      match s.key with
      | .number r => some (.exactly r)
      | .infinite negative => some (if negative then .bottom else .top)
      | _ => some .nowhere
    | _ => none
  | _ => none

/-- Whether a position is below another; a number that is nowhere is below none and above none. -/
def Position.below : Position → Position → Bool
  | .exactly r, .exactly s => decide (r < s)
  | .bottom, .exactly _ | .bottom, .top | .exactly _, .top => true
  | _, _ => false

/-- Whether a number is less than another; other values are not compared. -/
def lessThan (v w : Value) : Except Fault Bool :=
  match v.position?, w.position? with
  | some p, some q => .ok (p.below q)
  | _, _ => .error (.notCompared "<" v.typeName w.typeName)

/-- Whether a number is at least another; other values are not compared. -/
def atLeast (v w : Value) : Except Fault Bool :=
  match v.position?, w.position? with
  | some .nowhere, some _ | some _, some .nowhere => .ok false
  | some p, some q => .ok (!p.below q)
  | _, _ => .error (.notCompared ">=" v.typeName w.typeName)

end Value

namespace Completion

/-- Whether so many runs satisfy the policy, for a count of any type. -/
def satisfies (c : Completion) (runs : Value) : Except Value.Fault Bool :=
  runs.atLeast (.int c.leastRuns)

/-- Whether another run is allowed after so many, for a count and a limit of any type. -/
def allowsRun (c : Completion) (runs limit : Value) : Except Value.Fault Bool :=
  runs.lessThan (if c.isRepeatable then limit else .int 1)

end Completion

end Stepwise
