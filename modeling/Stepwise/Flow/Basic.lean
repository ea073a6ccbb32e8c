import Stepwise.Flow.Order
import Stepwise.Step.Basic

/-!
# Flows

A flow is a row of steps working towards a goal. One step may stand at several places of the row,
and two steps that are equal need not be one, so a flow holds its steps as objects and says for
each place which object stands there. Its variables are what the steps read and write;
`Flow.sorted` is an order in which every step follows the steps it depends on.
-/

namespace Stepwise

/-- A row of steps working towards a goal. -/
structure Flow where
  name : Option Text
  goal : Option Text
  objects : List Step := []
  places : List (Fin objects.length) := []

/-- The steps of a flow that wait for each other, by their goals. -/
structure Cycle where
  goals : List (Option Text)
  deriving DecidableEq, Repr

/-- A text that may be missing, inside a message. -/
def displayText (t : Option Text) : String := t.elim "None" Text.quoted

/-- A text that may be missing, written into a text as such. -/
def plainText (t : Option Text) : Text := t.getD "None"

/-- The text of the error. -/
def Cycle.message (c : Cycle) : String :=
  "The flow contains circular dependencies between steps: " ++
    ", ".intercalate (c.goals.map displayText)

namespace Flow

/-- The flow whose steps are all of their own. -/
def ofSteps (name goal : Option Text) (steps : List Step) : Flow :=
  ⟨name, goal, steps, List.finRange steps.length⟩

/-- What stands at a place of a row: a new step, or the one of an earlier place. -/
inductive Item where
  | fresh (s : Step)
  | shared (place : Nat)

/-- The objects of a row, and for each place the number of its object; a reference to a place that
does not come before is left out. -/
def collect (items : List Item) : List Step × List Nat :=
  items.foldl (fun (objects, places) item =>
    match item with
    | .fresh s => (objects ++ [s], places ++ [objects.length])
    | .shared i => (objects, places ++ (places[i]?).toList)) ([], [])

/-- The flow of a row in which steps may be shared. -/
def ofItems (name goal : Option Text) (items : List Item) : Flow :=
  let (objects, places) := collect items
  ⟨name, goal, objects, places.filterMap fun i =>
    if h : i < objects.length then some ⟨i, h⟩ else none⟩

variable (f : Flow)

/-- The step at an object's number. -/
def step (i : Fin f.objects.length) : Step := f.objects.get i

/-- The steps of a flow in order. -/
def steps : List Step := f.places.map f.step

@[simp] theorem steps_ofSteps (name goal : Option Text) (steps : List Step) :
    (ofSteps name goal steps).steps = steps := by
  apply List.ext_getElem <;> simp [Flow.steps, Flow.step, ofSteps]

/-- The variables that some step writes. -/
def provides : List Scalar := distinct (f.steps.flatMap Step.provides)

/-- The variables that some step reads and no step writes. -/
def requires : List Scalar :=
  let provided := Std.HashSet.ofList f.provides
  distinct ((f.steps.flatMap Step.requires).filter fun v => !provided.contains v)

/-! ### Dependencies -/

/-- Whether one object depends on another. -/
def needs (i j : Fin f.objects.length) : Bool := (f.step i).dependsOn (f.step j)

/-- For each object a row that tells of each object whether the first one depends on it. -/
def dependencies : Array (Array Bool) :=
  let provided := f.objects.toArray.map fun s => Std.HashSet.ofList s.provides
  f.objects.toArray.map fun s => provided.map fun names =>
    s.requires.any fun v => names.contains v

/-- What a table of dependencies tells of two objects. -/
def told (table : Array (Array Bool)) (i j : Nat) : Bool :=
  ((table[i]?).bind fun row => row[j]?).getD false

theorem told_dependencies (i j : Fin f.objects.length) :
    told f.dependencies i j = f.needs i j := by
  simp [told, dependencies, needs, step, Step.dependsOn]

/-- The pairs of places of which the first one depends on the second one. -/
def dependentPlaces : List (Nat × Nat) :=
  let table := f.dependencies
  let placed := f.places.zipIdx
  placed.flatMap fun (a, i) => placed.filterMap fun (b, j) =>
    if told table a b then some (i, j) else none

/-- The objects in an order in which each follows those it depends on. -/
def sorted : Except Cycle (List (Fin f.objects.length)) :=
  let table := f.dependencies
  let needs (i j : Fin f.objects.length) := told table i j
  (Order.arrange needs f.places).mapError fun left => ⟨left.map fun i => (f.step i).goal⟩

theorem sorted_eq_arrange_needs : f.sorted = (Order.arrange f.needs f.places).mapError fun left =>
    ⟨left.map fun i => (f.step i).goal⟩ := by
  simp [sorted, told_dependencies]

/-- Whether two flows have the same name and goal and equal steps. -/
def same (f g : Flow) : Bool :=
  f.name == g.name && f.goal == g.goal && f.steps.length == g.steps.length &&
    (f.steps.zip g.steps).all fun (s, t) => s.same t

end Flow

end Stepwise
