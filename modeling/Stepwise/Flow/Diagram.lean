import Stepwise.Flow.Basic
import Stepwise.Text.Encoding

/-!
# Diagrams of flows

The dependencies of a flow as the text of a chart: a heading, a node for each step with its goal
as the label, and an edge from a step to each one that reads a variable it writes, labelled with
these variables. A double quote inside a label is written as `#quot;`, so that a label ends where
its quotes do.
-/

namespace Stepwise.Diagram

/-- Why a diagram cannot be drawn. -/
inductive Fault where
  | unknownFormat (v : Value)
  /-- the name at a place among the variables of an edge is no text -/
  | notText (place : Nat) (type : String)
  /-- the text of the diagram does not fit into a file -/
  | notEncoded (e : Text.EncodeError)

/-- The text of a fault. -/
def Fault.message : Fault → String
  | unknownFormat v => "Unsupported format: " ++ v.display
  | notText place type =>
    "sequence item " ++ toString place ++ ": expected str instance, " ++ type ++ " found"
  | notEncoded e => e.message

/-- The one format there is. -/
def format : String := "mermaid"

/-- The label of a step before its quotes are replaced: its goal or, if it has none, the name of the
flow it stands for. -/
def title (s : Step) : Text :=
  let named := match s.kind with
    | .plain => []
    | .reference flowName => flowName.getD []
  if s.goal.getD [] ≠ [] then s.goal.getD [] else if named ≠ [] then named else "<unnamed>"

/-- A label, with its double quotes replaced. -/
def label (s : Step) : Text :=
  (title s).flatMap fun p => if p = .char '"' then "#quot;" else [p]

/-- The line of the node at a place. -/
def nodeLine (place : Nat) (s : Step) : Text :=
  ("    s" ++ toString place ++ "[\"" : String) ++ label s ++ "\"]"

/-- Those of the provided variables that a consumer reads, in the order in which it reads them. -/
def shared (provided : Std.HashSet Scalar) (consumer : Step) : List Scalar :=
  consumer.requires.filter provided.contains

/-- The first name of a list that is no text, with its place from the number `place` on. -/
def firstNotText : Nat → List Scalar → Option (Nat × Scalar)
  | _, [] => none
  | place, .text _ :: ns => firstNotText (place + 1) ns
  | place, n :: _ => some (place, n)

/-- Names with commas between them; each must be a text. -/
def joined (ns : List Scalar) : Except Fault Text :=
  match firstNotText 0 ns with
  | some (place, n) => .error (.notText place n.typeName)
  | none => .ok (List.intercalate (", " : Text) (ns.map fun n => (Value.scalar n).text?.getD []))

theorem shared_ofList (provider consumer : Step) :
    shared (.ofList provider.provides) consumer =
      consumer.requires.filter provider.provides.contains :=
  congrArg (consumer.requires.filter ·) (funext fun _ => Std.HashSet.contains_ofList)

/-- The line of an edge. -/
def edgeLine (source target : Nat) (names : Text) : Text :=
  ("    s" ++ toString source ++ " -->|" : String) ++ names ++
    ("| s" ++ toString target : String)

/-- The pairs of two different places that have variables to share, and these, in the order of the
pairs. -/
def edges (steps : List Step) : List (Nat × Nat × List Scalar) :=
  let placed := steps.zipIdx
  placed.flatMap fun (provider, i) =>
    let provided := Std.HashSet.ofList provider.provides
    placed.filterMap fun (consumer, j) =>
      let names := shared provided consumer
      if i ≠ j && !names.isEmpty then some (i, j, names) else none

/-- The lines of the diagram. -/
def lines (f : Flow) : Except Fault (List Text) := do
  let nodes := f.steps.zipIdx.map fun (s, i) => nodeLine i s
  let edgeLines ← (edges f.steps).mapM fun (i, j, names) => do
    pure (edgeLine i j (← joined names))
  pure (("graph TD" : Text) :: nodes ++ edgeLines)

/-- The diagram of a flow. -/
def draw (f : Flow) : Except Fault Text := do
  pure (List.intercalate ("\n" : Text) (← lines f) ++ "\n")

/-- The diagram in a format, which must be the one there is. -/
def drawAs (v : Value) (f : Flow) : Except Fault Text :=
  match v with
  | .text t => if t = format then draw f else .error (.unknownFormat v)
  | v => .error (.unknownFormat v)

/-- A diagram as the content of a file. -/
def content (diagram : Text) : Except Fault String := diagram.encoded.mapError .notEncoded

end Stepwise.Diagram
