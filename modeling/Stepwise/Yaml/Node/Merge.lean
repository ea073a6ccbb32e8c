import Std.Data.HashSet
import Stepwise.Yaml.Node

/-!
# Merging mappings

A merge key puts the pairs of another mapping, or of a list of mappings, in front of the pairs of
the mapping it stands in, where later pairs replace them. The mappings that are put in are merged
first, and of a list the first one counts most. A mapping that is put in twice brings the same pairs
twice; pairs that can make no difference are left out, so that their number stays in bounds.
-/

namespace Stepwise.Yaml

namespace Graph

/-- The pairs of a node that is a mapping. -/
def pairs? (g : Graph) (i : Nat) : Option (List (Nat × Nat)) :=
  match (g.node i).content with
  | .mapping ps => some ps
  | _ => none

/-- A list of pairs in reverse, in which those are marked that had been marked or stand first among
equal ones. -/
def marked (ps : List ((Nat × Nat) × Bool)) : List ((Nat × Nat) × Bool) :=
  (ps.foldl (fun (met, out) (p, mark) =>
    (met.insert p, (p, mark || !met.contains p) :: out)) ((∅ : Std.HashSet (Nat × Nat)), [])).2

/-- Leaves out of a list every pair that also stands before and behind. A key keeps its first place
and its last value, so the pairs in between make no difference. -/
def condensed (ps : List (Nat × Nat)) : List (Nat × Nat) :=
  (marked (marked (ps.map (·, false)))).filterMap fun (p, mark) => if mark then some p else none

/-- The rows of pairs of the mappings of a list, each merged by `merge`, in front of other rows: the
last mapping comes first. -/
def listRows (merge : Graph → Nat → Except Fault Graph) :
    List Nat → List (List (Nat × Nat)) → Graph → Except Fault (Graph × List (List (Nat × Nat)))
  | [], rows, g => .ok (g, rows)
  | i :: is, rows, g => do
    if (g.pairs? i).isNone then throw .value
    let g ← merge g i
    listRows merge is ((g.pairs? i).getD [] :: rows) g

/-- The pairs that a merge key puts in. -/
def mergedPairs (merge : Graph → Nat → Except Fault Graph) (g : Graph) (value : Nat) :
    Except Fault (Graph × List (Nat × Nat)) :=
  match (g.node value).content with
  | .mapping _ => do
    let g ← merge g value
    pure (g, (g.pairs? value).getD [])
  | .sequence items => do
    let (g, rows) ← listRows merge items [] g
    pure (g, rows.flatten)
  | .scalar _ => .error .value

/-- Goes over the pairs of the mapping `i`: `kept` are those before and `merged` the rows of pairs
put in so far, both in reverse. A pair whose key is `=` gets a text for its key. If the mapping has
changed meanwhile, it contained itself and has been merged already. -/
def mergeFrom (merge : Graph → Nat → Except Fault Graph) (i : Nat) :
    List (Nat × Nat) → List (Nat × Nat) → List (List (Nat × Nat)) → Graph → Except Fault Graph
  | [], kept, merged, g =>
    let put := merged.reverse.flatten
    .ok (if put.isEmpty then g else g.setContent i (.mapping (condensed (put ++ kept.reverse))))
  | (k, v) :: rest, kept, merged, g =>
    match (g.node k).tag with
    | .merge => do
      let left := kept.reverseAux rest
      let g := g.setContent i (.mapping left)
      let (g, new) ← mergedPairs merge g v
      let now := (g.pairs? i).getD []
      if now = left then mergeFrom merge i rest kept (new :: merged) g
      else
        pure (g.setContent i (.mapping (condensed ((new :: merged).reverse.flatten ++ now))))
    | .value => mergeFrom merge i rest ((k, v) :: kept) merged (g.setTag k .text)
    | _ => mergeFrom merge i rest ((k, v) :: kept) merged g

/-- Carries out the merge keys of a mapping, going at most `room` mappings deep. -/
def merge : Nat → Graph → Nat → Except Fault Graph
  | 0, _, _ => .error .tooDeep
  | room + 1, g, i =>
    match g.pairs? i with
    | some ps => mergeFrom (merge room) i ps [] [] g
    | none => .ok g

end Graph

end Stepwise.Yaml
