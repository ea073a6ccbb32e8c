import Stepwise.Yaml.Node.Merge
import Stepwise.Yaml.Scalar

/-!
# The data of a document

Reads the nodes of a document as data, each by its tag. Nodes are read level by level from the
top, so that of two faults the one nearer to the top comes first. Data refer to each other by the
numbers of their nodes, so a collection may stand in several places and even contain itself.
-/

namespace Stepwise.Yaml

/-- A scalar as a key. A value that is no number equals no key but itself, so it is told by the node
that it was read from; the word for it always gives the same one. -/
structure Key where
  scalar : Scalar
  origin : Option Nat := none

/-- Keys are one if their scalars are equal and, for values that are no numbers, of one origin. -/
instance : BEq Key := ⟨fun k l => k.scalar == l.scalar && k.origin == l.origin⟩

/-- The hash of a key is that of its scalar. -/
instance : Hashable Key := ⟨fun k => hash k.scalar⟩

/-- The data of a node, with the numbers of the nodes of its parts. -/
inductive Datum where
  | scalar (k : Key)
  | list (items : List Nat)
  | dict (entries : Entries Key Nat)
  | set (members : List Key)
  /-- a list of pairs -/
  | pairs (ps : List (Nat × Nat))

/-- The data read so far. -/
structure Store where
  graph : Graph
  /-- for each node its data once they are read -/
  data : Array (Option Datum)
  /-- the collections still to be filled, the last one first -/
  waiting : List Nat := []

namespace Store

/-- The text of a scalar. A mapping stands for the value under the key `=`, at most `fuel` times. -/
def scalarText (g : Graph) : Nat → Nat → Except Fault Text
  | 0, _ => .error .endless
  | fuel + 1, i =>
    match (g.node i).content with
    | .scalar t => .ok t
    | .sequence _ => .error .value
    | .mapping pairs =>
      match pairs.find? fun (k, _) => (g.node k).tag = .value with
      | some (_, v) => scalarText g fuel v
      | none => .error .value

/-- The scalar that a text with a tag stands for. -/
def readScalar (tag : Tag) (t : Text) : Except Fault Scalar :=
  match tag with
  | .null => .ok .null
  | .bool => (readBool t).map .bool
  | .int => (readInt t).map .int
  | .float => (readFloat t).map .float
  | .timestamp => readTime t.replaced
  | .binary => (readBytes t.replaced).map .bytes
  | _ => .ok (.text t)

/-- The key that the scalar of a node is. -/
def keyOf (i : Nat) (t : Text) (k : Scalar) : Key :=
  ⟨k, if k.key = .nan ∧ !isNanWord t then some i else none⟩

/-- Reads a scalar. Only a time must be a text itself. -/
def readNode [Limits] (g : Graph) (i : Nat) : Except Fault Key := do
  let t ← scalarText g Limits.following i
  if (g.node i).tag = .timestamp ∧ (g.pairs? i).isSome then throw .timeNotText
  pure (keyOf i t (← readScalar (g.node i).tag t))

/-- Notes the data of a node. -/
def put (s : Store) (i : Nat) (d : Datum) : Store := { s with data := s.data.set! i (some d) }

/-- Begins to read a node: a scalar is read, a collection noted to be filled. -/
def begin [Limits] (s : Store) (i : Nat) : Except Fault Store :=
  match (s.data[i]?).join with
  | some _ => .ok s
  | none =>
    let wait (d : Datum) : Except Fault Store :=
      .ok { s.put i d with waiting := i :: s.waiting }
    match (s.graph.node i).tag with
    | .sequence => wait (.list [])
    | .mapping => wait (.dict [])
    | .set => wait (.set [])
    | .orderedMap | .pairs => wait (.pairs [])
    | .merge | .value | .other _ => .error .value
    | _ => do pure (s.put i (.scalar (← readNode s.graph i)))

/-- The key that a node has been read as; a collection is no key. -/
def key (s : Store) (i : Nat) : Except Fault Key :=
  match (s.data[i]?).join with
  | some (.scalar k) => .ok k
  | _ => .error .value

/-- Reads the pairs of a mapping behind the entries so far, which are listed in reverse. -/
def readPairs [Limits] : List (Nat × Nat) → List (Key × Nat) → Store →
    Except Fault (Entries Key Nat × Store)
  | [], es, s => .ok (Entries.ofList es.reverse, s)
  | (k, v) :: ps, es, s => do
    let s ← s.begin k
    let name ← s.key k
    let s ← s.begin v
    readPairs ps ((name, v) :: es) s

/-- Reads the entries of a mapping. -/
def readMapping [Limits] (s : Store) (i : Nat) : Except Fault (Entries Key Nat × Store) := do
  let ⟨graph, data, waiting⟩ := s
  let graph ← Graph.merge Limits.merging graph i
  match (graph.node i).content with
  | .mapping ps => readPairs ps [] ⟨graph, data, waiting⟩
  | _ => throw .value

/-- Reads the one pair of each of a list of mappings behind those so far, which are listed in
reverse. -/
def readSingles [Limits] : List Nat → List (Nat × Nat) → Store → Except Fault (List (Nat × Nat) × Store)
  | [], ps, s => .ok (ps.reverse, s)
  | i :: is, ps, s => do
    match (s.graph.node i).content with
    | .mapping [(k, v)] =>
      let s ← s.begin k
      let s ← s.begin v
      readSingles is ((k, v) :: ps) s
    | _ => throw .value

/-- Fills a collection. -/
def fill [Limits] (s : Store) (i : Nat) : Except Fault Store := do
  let node := s.graph.node i
  match node.tag with
  | .sequence =>
    match node.content with
    | .sequence items => do
      let s ← items.foldlM begin s
      pure (s.put i (.list items))
    | _ => throw .value
  | .mapping =>
    let (es, s) ← s.readMapping i
    pure (s.put i (.dict es))
  | .set =>
    let (es, s) ← s.readMapping i
    pure (s.put i (.set es.keys))
  | _ =>
    match node.content with
    | .sequence items =>
      let (ps, s) ← readSingles items [] s
      pure (s.put i (.pairs ps))
    | _ => throw .value

/-- Fills the collections of a list, and then those that were met meanwhile, until none is
waiting; at most `fuel` steps. -/
def fillAll [Limits] : Nat → List Nat → Store → Except Fault Store
  | 0, _, _ => .error .value
  | fuel + 1, [], s =>
    if s.waiting.isEmpty then .ok s
    else fillAll fuel s.waiting.reverse { s with waiting := [] }
  | fuel + 1, i :: is, s => do fillAll fuel is (← s.fill i)

/-- Reads all nodes of a document. Each is filled once, and there are no more lists than nodes. -/
def ofGraph [Limits] (g : Graph) : Except Fault Store := do
  let n := g.nodes.size
  let s : Store := { graph := g, data := Array.replicate n none }
  fillAll (2 * n + 2) [] (← s.begin g.root)

end Store

end Stepwise.Yaml
