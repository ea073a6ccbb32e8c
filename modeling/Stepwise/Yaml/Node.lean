import Stepwise.Limits
import Stepwise.Yaml.Event
import Stepwise.Yaml.Tag

/-!
# Nodes

The nodes of a document, numbered in the order in which they begin. A collection lists the numbers
of its parts, so that an alias is a second occurrence of a number and a collection may contain
itself. Collections are written only so deep in each other.
-/

namespace Stepwise.Yaml

/-- What a node holds. -/
inductive Content where
  | scalar (text : Text)
  | sequence (items : List Nat)
  | mapping (pairs : List (Nat × Nat))
  deriving DecidableEq, Repr

/-- A node and what it is read as. -/
structure Node where
  tag : Tag
  content : Content
  deriving DecidableEq, Repr

/-- The nodes of a document. -/
structure Graph where
  nodes : Array Node
  root : Nat

namespace Graph

/-- The node with a number. -/
def node (g : Graph) (i : Nat) : Node := (g.nodes[i]?).getD ⟨.null, .scalar []⟩

/-- Changes what a node holds. -/
def setContent (g : Graph) (i : Nat) (c : Content) : Graph :=
  { g with nodes := g.nodes.modify i fun n => { n with content := c } }

/-- Changes what a node is read as. -/
def setTag (g : Graph) (i : Nat) (t : Tag) : Graph :=
  { g with nodes := g.nodes.modify i fun n => { n with tag := t } }

end Graph

/-- A collection that has begun: its number and its parts so far, the last one first. -/
structure OpenCollection where
  number : Nat
  parts : List Nat := []

/-- The nodes read so far. -/
structure Builder where
  nodes : Array Node := #[]
  anchors : Entries String Nat := []
  /-- the collections that have begun, the innermost one first -/
  opened : List OpenCollection := []
  /-- the number of the node at the top, when it is complete -/
  root : Option Nat := none

namespace Builder

/-- Adds a complete node to the innermost collection. -/
def attach (b : Builder) (i : Nat) : Builder :=
  match b.opened with
  | c :: rest => { b with opened := { c with parts := i :: c.parts } :: rest }
  | [] => { b with root := some i }

/-- Adds a node; its anchor must be new. -/
def create (b : Builder) (anchor : Option String) (n : Node) : Except Fault (Nat × Builder) :=
  let i := b.nodes.size
  match anchor with
  | none => .ok (i, { b with nodes := b.nodes.push n })
  | some a =>
    if b.anchors.hasKey a then .error .document
    else .ok (i, { b with nodes := b.nodes.push n, anchors := b.anchors ++ [(a, i)] })

/-- The tag of a node: its own, or the one that its form decides on. -/
def tagOf (own : Option String) (form : Tag) : Tag :=
  match own with
  | none => form
  | some name => if name = "!" then form else .ofName name

/-- Begins a collection, unless too many are open. -/
def begin [Limits] (b : Builder) (anchor : Option String) (n : Node) : Except Fault Builder := do
  if Limits.composing ≤ b.opened.length then throw .tooDeep
  let (i, b) ← b.create anchor n
  pure { b with opened := ⟨i, []⟩ :: b.opened }

/-- The pairs of a row of alternating keys and values. -/
def pairUp : List Nat → List (Nat × Nat)
  | k :: v :: rest => (k, v) :: pairUp rest
  | _ => []

/-- Ends the innermost collection. -/
def finish (b : Builder) : Builder :=
  match b.opened with
  | [] => b
  | c :: rest =>
    let parts := c.parts.reverse
    let nodes := b.nodes.modify c.number fun n =>
      { n with content := match n.content with
        | .mapping _ => .mapping (pairUp parts)
        | _ => .sequence parts }
    { b with nodes, opened := rest }.attach c.number

/-- Reads an event inside a document. -/
def read [Limits] (b : Builder) : Event → Except Fault Builder
  | .alias name =>
    match b.anchors.get? name with
    | some i => .ok (b.attach i)
    | none => .error .document
  | .scalar anchor tag isOpen text => do
    let form := if isOpen then Tag.ofPlain text.replaced else .text
    let (i, b) ← b.create anchor ⟨tagOf tag form, .scalar text⟩
    pure (b.attach i)
  | .sequenceStart anchor tag => b.begin anchor ⟨tagOf tag .sequence, .sequence []⟩
  | .mappingStart anchor tag => b.begin anchor ⟨tagOf tag .mapping, .mapping []⟩
  | .sequenceEnd | .mappingEnd => .ok b.finish
  | .documentStart | .documentEnd | .streamEnd => .ok b

end Builder

/-- Reads the events of a document up to its end; the rest must be the end of the text. -/
def composeFrom [Limits] (fault : Option Fault) : List Event → Builder → Except Fault Builder
  | [], _ => .error (fault.getD .document)
  | .documentEnd :: rest, b =>
    match rest with
    | [] => .error (fault.getD .document)
    | .streamEnd :: _ => .ok b
    | _ => .error .document
  | e :: rest, b => do composeFrom fault rest (← b.read e)

/-- The nodes of the one document of a text; nothing if there is none. -/
def Graph.ofEvents? [Limits] (es : Events) : Except Fault (Option Graph) :=
  match es.events with
  | [] => .error (es.fault.getD .document)
  | .streamEnd :: _ => .ok none
  | _ :: rest => do
    let b ← composeFrom es.fault rest {}
    pure (some ⟨b.nodes, b.root.getD 0⟩)

end Stepwise.Yaml
