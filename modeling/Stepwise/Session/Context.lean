import Stepwise.Limits
import Stepwise.Text.Digits
import Stepwise.Text.Quoted
import Stepwise.Value.Fault

/-!
# Contexts

A context carries the identifier of a session, the name of the flow that runs in it and metadata.
It is known by a handle, since several tasks may hold one context and see what the others change
in it. The context that is current belongs to a task alone. A flow entered inside a session gets a
context of its own with the same identifier and a copy of the metadata, whose values may not be
nested too deeply for that.
-/

namespace Stepwise

/-- What a session carries along. -/
structure Context where
  sessionId : String
  flowName : Option String := none
  metadata : Entries String Value := []

namespace Context

/-- What a context holds under a key. -/
def get? (c : Context) (key : String) : Option Value := c.metadata.get? key

/-- Puts a value under a key. -/
def set (c : Context) (key : String) (v : Value) : Context :=
  { c with metadata := c.metadata.insert key v }

/-- Why the metadata of a context refuse an operation. -/
inductive Fault where
  /-- nothing is held under a key -/
  | missing (key : String)
  | refused (fault : Value.Fault)
  /-- a value is nested too deeply to be copied -/
  | tooDeep
  deriving DecidableEq, Repr

/-- The text of a fault. -/
def Fault.message : Fault → String
  | missing key => Text.quoted key
  | refused fault => fault.message
  | tooDeep => "maximum recursion depth exceeded while calling a Python object"

/-- Takes a key out, which must be there. -/
def delete (c : Context) (key : String) : Except Fault Context :=
  if c.metadata.hasKey key then .ok { c with metadata := c.metadata.erase key }
  else .error (.missing key)

/-- A list with a value at its end. -/
def appended (list v : Value) : Except Fault Value :=
  match list with
  | .list xs => .ok (.list (xs ++ [v]))
  | w => .error (.refused (.noMember w.typeName "append"))

/-- Appends to the list under a key; a missing key counts as the null value. -/
def append (c : Context) (key : String) (v : Value) : Except Fault Context := do
  pure (c.set key (← appended ((c.get? key).getD .null) v))

/-- A copy of the metadata, which is refused as a whole if one value cannot be copied. -/
def copied [Limits] (c : Context) : Except Fault (Entries String Value) :=
  if c.metadata.all fun (_, v) => Limits.clones v then .ok c.metadata else .error .tooDeep

end Context

/-! ### Snapshots -/

/-- A copy of the metadata of a context. A value of the copy is the one that the context holds
until it is replaced in the copy. -/
structure Snapshot where
  entries : Entries String Value
  /-- the keys whose values have been replaced -/
  replaced : List String := []

/-- A copy of the metadata as they are. -/
def Context.snapshot (c : Context) : Snapshot := { entries := c.metadata }

namespace Snapshot

/-- Puts a value under a key of the copy, which leaves the context as it is. -/
def set (s : Snapshot) (key : String) (v : Value) : Snapshot :=
  { entries := s.entries.insert key v, replaced := key :: s.replaced }

/-- Appends to a list of the copy of a context. A list that the context holds as well is changed
in the context too. -/
def append (s : Snapshot) (c : Context) (key : String) (v : Value) :
    Except Context.Fault (Snapshot × Context) :=
  match s.entries.get? key with
  | none => .error (.missing key)
  | some list => do
    let list ← Context.appended list v
    let c := if s.replaced.contains key then c else c.set key list
    pure ({ s with entries := s.entries.insert key list }, c)

end Snapshot

/-! ### Contexts by their handles -/

/-- The handle of a context. -/
abbrev ContextId := Nat

/-- The contexts there are, and how many identifiers of sessions have been made. -/
structure Contexts where
  all : List Context := []
  issued : Nat := 0

namespace Contexts

/-- The identifier with a number: at least thirty-two digits in base sixteen. -/
def identifier (n : Nat) : String := String.ofList (Text.paddedHex 32 n)

variable (cs : Contexts)

/-- The context with a handle. -/
def get? (i : ContextId) : Option Context := cs.all[i]?

/-- Changes the context with a handle. -/
def modify (i : ContextId) (f : Context → Context) : Contexts :=
  { cs with all := cs.all.modify i f }

/-- Adds a context. -/
def add (c : Context) : ContextId × Contexts := (cs.all.length, { cs with all := cs.all ++ [c] })

/-- Makes a context. A session identifier that is missing or empty is made as well. -/
def create (sessionId flowName : Option String) (metadata : Entries String Value) :
    ContextId × Contexts :=
  match sessionId.filter (· ≠ "") with
  | some id => cs.add ⟨id, flowName, metadata⟩
  | none =>
    { cs with issued := cs.issued + 1 }.add ⟨identifier (cs.issued + 1), flowName, metadata⟩

/-- The name of the flow in a context that is forked: the new one unless it is missing or empty. -/
def forkName (parent : Context) (flowName : Option String) : Option String :=
  (flowName.filter (· ≠ "")).or parent.flowName

/-- Makes a context for a flow inside the session of another context, with a copy of what that one
holds. -/
def fork [Limits] (parent : Context) (flowName : Option String) :
    Except Context.Fault (ContextId × Contexts) := do
  pure (cs.create (some parent.sessionId) (forkName parent flowName) (← parent.copied))

end Contexts

end Stepwise
