import Stepwise.Flow.Validation
import Stepwise.Session.State

/-!
# Spans

A span is the time that an operation on a flow takes. Under a log its start and its end are
records that carry the flow, the operation, the session and the attributes of the span, the end
also the time it took and the exception that left it, if any, which goes on behind the span. Under a
tracer it is a span of that tracer. What a span has recorded at its start it keeps to its end,
whatever becomes of the session meanwhile.
-/

namespace Stepwise

/-- A span that is open. -/
inductive Span where
  | logged (operation : String) (fields : Entries String LogField)
  | traced (name : String)

/-- Why a span cannot be opened. -/
inductive SpanError where
  /-- an attribute has the name of a part of the call on a backend of a type -/
  | givenTwice (backend name : String)
  /-- an attribute has a name that log records use themselves -/
  | reservedField (name : String)
  deriving DecidableEq, Repr

/-- The text of an error. -/
def SpanError.message : SpanError → String
  | givenTwice backend name =>
    backend ++ ".span() got multiple values for argument '" ++ name ++ "'"
  | reservedField name =>
    Text.quoted ("Attempt to overwrite " ++ Text.quoted name ++ " in LogRecord")

namespace Span

/-- The names that log records use themselves. -/
def reservedFields : List String :=
  ["message", "asctime", "name", "msg", "args", "levelname", "levelno", "pathname", "filename",
    "module", "exc_info", "exc_text", "stack_info", "lineno", "funcName", "created", "msecs",
    "relativeCreated", "thread", "threadName", "processName", "process"]

/-- The names of the parts of a call that opens a span. -/
def callNames : List String := ["self", "operation", "flow_name"]

/-- The fields of the log records of a span; attributes replace fields of the same name. -/
def logFields (operation : String) (flow : Value) (session : String)
    (attributes : Entries String Value) : Entries String LogField :=
  (attributes.map fun (k, v) => (k, LogField.value v)).foldl (fun es (k, v) => es.insert k v)
    [("flow", .value flow), ("operation", .value (.text operation)),
      ("session_id", .value (.text session))]

/-- The fields of the record at the end of a span. -/
def endFields (fields : Entries String LogField) (exception : Option String) :
    Entries String LogField :=
  let fields := fields.insert "duration_ms" .elapsed
  match exception with
  | none => fields
  | some e => fields.insert "error" (.value (.text e))

/-- The fields that a span has put into the log. -/
def fields : Span → Entries String LogField
  | logged _ fields => fields
  | traced _ => []

/-- The attributes of a span of a tracer. -/
def spanAttributes (flow : Value) (session : Option String) (attributes : Entries String Value) :
    Entries String Value :=
  let named := Entries.ofList
    (("flowgate.flow", flow) :: attributes.map fun (k, v) => ("flowgate." ++ k, v))
  match session with
  | none => named
  | some id => named.insert "flowgate.session_id" (.text id)

end Span

namespace State

/-- The backend in use. -/
def backend (s : State) : Backend × State :=
  let (b, tracing) := s.shared.tracing.current
  (b, { s with shared := { s.shared with tracing } })

/-- The identifier that ties the spans of the current session together. A log makes a session where
there is none; a tracer falls back on the trace. -/
def correlationId (s : State) (kind : BackendKind) : String × State :=
  match s.sessionId? with
  | some id => (id, s)
  | none =>
    match kind with
    | .log =>
      let (i, s) := s.ensureContext
      (((s.context? i).map Context.sessionId).getD "", s)
    | .tracer _ =>
      (if s.ambient.trace = 0 then "" else Contexts.identifier s.ambient.trace, s)

/-- Opens a span of a backend, none of whose attributes has a name that is taken. -/
def startSpan (s : State) (b : Backend) (operation : String) (flow : Value)
    (attributes : Entries String Value) : Span × State :=
  match b.kind with
  | .log =>
    let (session, s) := s.correlationId b.kind
    let fields := Span.logFields operation flow session attributes
    (.logged operation fields, s.emit (.log (operation ++ ".start") fields))
  | .tracer tracer =>
    let name := "flowgate." ++ operation
    (.traced name,
      s.emit (.spanStart tracer name (Span.spanAttributes flow s.sessionId? attributes)))

/-- Opens a span of a backend. A log has asked for the session when it refuses a field. -/
def openSpan (s : State) (b : Backend) (operation : String) (flow : Value)
    (attributes : Entries String Value) : Except SpanError Span × State :=
  match attributes.find? fun (k, _) => Span.callNames.contains k with
  | some (k, _) => (.error (.givenTwice b.kind.typeName k), s)
  | none =>
    let (span, opened) := s.startSpan b operation flow attributes
    match span.fields.find? fun (k, _) => Span.reservedFields.contains k with
    | some (k, _) => (.error (.reservedField k), (s.correlationId b.kind).2)
    | none => (.ok span, opened)

/-- Closes a span, which an exception of a type may have left. -/
def closeSpan (s : State) (span : Span) (exception : Option String) : State :=
  match span with
  | .logged operation fields =>
    s.emit (.log (operation ++ ".end") (Span.endFields fields exception))
  | .traced name => s.emit (.spanEnd name exception)

/-- The type of the exception that a violation is, in records. -/
def violationType : String := "FlowValidationError"

/-- What the span of a validation tells about a flow: a name that is never taken. -/
def checkAttributes (f : Flow) : Entries String Value := [("step_count", .int f.places.length)]

/-- Checks a flow inside a span of the backend in use. -/
def validate (s : State) (f : Flow) : Except Violation Unit × State :=
  let (b, s) := s.backend
  let (span, s) := s.startSpan b "validate" (f.name.elim .null .text) (checkAttributes f)
  match f.check with
  | .ok () => (.ok (), s.closeSpan span none)
  | .error v => (.error v, s.closeSpan span (some violationType))

end State

/-! ### Blocks of spans -/

/-- An exception. -/
inductive Raised where
  /-- one of a program's own, of a type and told from others by its number -/
  | own (type : String) (number : Nat)
  | violation (v : Violation)
  /-- metadata are nested too deeply to be copied for a session -/
  | uncopied
  | refused (e : SpanError)

/-- The name of the type of an exception in records. -/
def Raised.typeName : Raised → String
  | own type _ => type
  | violation _ => State.violationType
  | uncopied => "RecursionError"
  | refused (.givenTwice _ _) => "TypeError"
  | refused (.reservedField _) => "KeyError"

/-- Leaves the block of a span, by an exception or without one. The answer is the exception that
goes on behind the block; where the record at the end cannot be written, this is another one. -/
def State.exitSpan (s : State) (span : Span) (raised : Option Raised) : Option Raised × State :=
  let exception := raised.map Raised.typeName
  match span with
  | .logged _ fields =>
    match (Span.endFields fields exception).find? fun (k, _) => Span.reservedFields.contains k with
    | some (k, _) => (some (.refused (.reservedField k)), s)
    | none => (raised, s.closeSpan span exception)
  | .traced _ => (raised, s.closeSpan span exception)

end Stepwise
