import Stepwise.Value.Display
import Stepwise.Value.Extent
import Stepwise.Yaml.Data

/-!
# Unfolding data

The data of a document as a value, as much of it as is wanted. A collection is unfolded in each
place where it stands, and cut off where it meets itself. The whole of a value is wanted where it is
shown, so unfolding it ends at the first thing that keeps it from being shown.
-/

namespace Stepwise.Yaml

namespace Store

/-- The data of a node as a value without its parts. -/
def outline (s : Store) (i : Nat) : Value :=
  match (s.data[i]?).join with
  | none => .null
  | some (.scalar k) => .scalar k.scalar
  | some (.set ks) => .set (ks.map fun k => .scalar k.scalar)
  | some (.list items) => .list (items.map fun _ => .null)
  | some (.pairs ps) => .list (ps.map fun _ => .tuple [.null, .null])
  | some (.dict es) => .dict (es.map fun (k, _) => (k.scalar, .null))

/-- Whether the data of a node are a mapping. -/
def isDict (s : Store) (i : Nat) : Bool :=
  match (s.data[i]?).join with
  | some (.dict _) => true
  | _ => false

/-- Notes whether a scalar can be shown. -/
def note (k : Scalar) : StateM Bool Unit :=
  modify (· || (Value.scalarHindrance? k).isSome)

/-- Unfolds the data of a node with all parts, `room` deep; `above` lists the collections around it,
at which it is cut off. The state tells whether something has been met that cannot be shown: what
comes behind it is left out. -/
def whole (s : Store) : Nat → List Nat → Nat → StateM Bool Value
  | 0, _, _ => do
    set true
    pure .null
  | room + 1, above, i => do
    if ← get then pure .null
    else if above.contains i then pure (.again (s.isDict i))
    else
      let part := s.whole room (i :: above)
      match (s.data[i]?).join with
      | none => pure .null
      | some (.scalar k) => do
        note k.scalar
        pure (.scalar k.scalar)
      | some (.set ks) => do
        ks.forM fun k => note k.scalar
        pure (.set (ks.map fun k => .scalar k.scalar))
      | some (.list items) => do pure (.list (← items.mapM part))
      | some (.pairs ps) => do
        pure (.list (← ps.mapM fun (k, v) => do pure (.tuple [← part k, ← part v])))
      | some (.dict es) => do
        pure (.dict (← es.mapM fun (k, v) => do
          note k.scalar
          pure (k.scalar, ← part v)))

/-- As much of the data of a node as is wanted, as a value. -/
def value [Limits] (s : Store) : Extent → Nat → Value
  | .whole, i => (s.whole Limits.showing [] i |>.run' false).run
  | .outline, i => s.outline i
  | .elements each, i =>
    match (s.data[i]?).join with
    | some (.list items) => .list (items.zipIdx.map fun (j, n) => s.value (each n) j)
    | _ => s.outline i
  | .members wanted under, i =>
    match (s.data[i]?).join with
    | some (.dict es) =>
      .dict ((es.filter fun (k, _) => wanted k.scalar).map fun (k, v) =>
        (k.scalar, s.value (under k.scalar) v))
    | _ => s.outline i

end Store

/-- The data of the one document of a text, as much of them as is wanted; without a document the
null value. -/
def read [Limits] (text : String) : Except Fault (Extent → Value) := do
  match ← Graph.ofEvents? (Events.ofTokens (Tokens.ofText text)) with
  | none => pure fun _ => .null
  | some g => do
    let s ← Store.ofGraph g
    pure fun wanted => s.value wanted g.root

end Stepwise.Yaml
