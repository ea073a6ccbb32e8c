import Stepwise.Session.Context
import Stepwise.Tracing.Record

/-!
# The state that sessions and traces work on

All tasks share the contexts, the tracing backend and the records; each has its own current
context and trace. This file holds the operations on the current context: a session is entered by
making a context current and left by making the one before current again.
-/

namespace Stepwise

/-- What all tasks share. -/
structure Shared where
  contexts : Contexts := {}
  tracing : Tracing := {}
  /-- what has been recorded, in order -/
  records : List Record := []

/-- What belongs to one task: its current context, and the number of the trace it runs in, which is
zero outside a trace. -/
structure Ambient where
  current : Option ContextId := none
  trace : Nat := 0
  deriving DecidableEq, Repr

/-- What an operation works on. -/
structure State where
  shared : Shared := {}
  ambient : Ambient := {}

namespace State

variable (s : State)

/-- Changes the contexts. -/
def withContexts (cs : Contexts) : State := { s with shared := { s.shared with contexts := cs } }

/-- Makes a context current, or none. -/
def setCurrent (i : Option ContextId) : State :=
  { s with ambient := { s.ambient with current := i } }

/-- Records something. -/
def emit (r : Record) : State :=
  { s with shared := { s.shared with records := s.shared.records ++ [r] } }

/-- The context with a handle. -/
def context? (i : ContextId) : Option Context := s.shared.contexts.get? i

/-- The current context. -/
def currentContext? : Option Context := s.ambient.current.bind s.context?

/-- The identifier of the current session. -/
def sessionId? : Option String := s.currentContext?.map Context.sessionId

/-- The current context, a new one if there is none. -/
def ensureContext : ContextId × State :=
  match s.ambient.current with
  | some i => (i, s)
  | none =>
    let (i, cs) := s.shared.contexts.create none none []
    (i, (s.withContexts cs).setCurrent (some i))

/-- The context for a flow that is entered: forked from the current one, unless an identifier for
the session is given or there is no current one. -/
def contextFor [Limits] (flowName sessionId : Option String) :
    Except Context.Fault (ContextId × Contexts) :=
  match s.currentContext?, sessionId with
  | some parent, none => s.shared.contexts.fork parent flowName
  | _, _ => .ok (s.shared.contexts.create sessionId flowName [])

/-- Enters a session. The answer is the context that was current, to be given back on leaving. -/
def enter [Limits] (flowName sessionId : Option String) :
    Except Context.Fault (Option ContextId × State) := do
  let (i, cs) ← s.contextFor flowName sessionId
  pure (s.ambient.current, (s.withContexts cs).setCurrent (some i))

/-- Leaves a session: the context that was current on entering is current again. -/
def leave (before : Option ContextId) : State := s.setCurrent before

/-- Puts a value under a key of the current context, a new one if there is none. -/
def setValue (key : String) (v : Value) : State :=
  let (i, s) := s.ensureContext
  s.withContexts (s.shared.contexts.modify i (·.set key v))

/-- The value under a key of the current context, if there is one. -/
def value? (key : String) : Option Value := s.currentContext?.bind (·.get? key)

/-- An event with the identifier and the flow of the current session entered, where the event has no
such entries and outside a session not at all. -/
def tagged (event : Entries String Value) : Entries String Value :=
  match s.currentContext? with
  | none => event
  | some c =>
    let event := event.insertNew "flow_session_id" (.text c.sessionId)
    match c.flowName with
    | none => event
    | some name => event.insertNew "flow" (.text name)

end State

end Stepwise
