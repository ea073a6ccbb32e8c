import Stepwise.Limits
import Stepwise.Value.Display

/-!
# Tracing backends and what they record

A backend either writes a log, two records for each span, or asks a tracer to open and close
spans. The configuration holds the backend in use. Backends are numbered in the order in which
they are made, so that one can be told from another of the same kind.
-/

namespace Stepwise

/-- Where spans are reported. -/
inductive BackendKind where
  /-- a log -/
  | log
  /-- a tracer with a name -/
  | tracer (name : String)
  deriving DecidableEq, Repr

/-- A tracing backend. -/
structure Backend where
  number : Nat
  kind : BackendKind
  deriving DecidableEq, Repr

/-- The name of the type of a backend in messages. -/
def BackendKind.typeName : BackendKind → String
  | log => "LoggingBackend"
  | tracer _ => "OTelBackend"

/-- A field of a log record. -/
inductive LogField where
  | value (v : Value)
  /-- the time that a span took -/
  | elapsed

/-- Something that has been recorded. -/
inductive Record where
  | log (message : String) (fields : Entries String LogField)
  | spanStart (tracer name : String) (attributes : Entries String Value)
  /-- a span ends, by an exception of a type if one is named -/
  | spanEnd (name : String) (exception : Option String)

/-- The configuration of tracing. -/
structure Tracing where
  backend : Option Backend := none
  configured : Bool := false
  /-- how many backends have been made -/
  made : Nat := 0
  /-- whether there is a library of tracers -/
  hasTracers : Bool := true

namespace Tracing

/-- What the configuration is asked to use. -/
inductive Choice where
  | backend (b : Backend)
  | value (v : Value)

/-- Why a request on the configuration is refused. -/
inductive Error where
  /-- a value names no backend -/
  | unknown (v : Value)
  /-- a value names no backend and cannot be shown -/
  | unshowable (hindrance : Value.Hindrance)
  | noTracers
  /-- a backend is said to be configured and there is none -/
  | noBackend

/-- The text of an error. -/
def Error.message : Error → String
  | unknown v => "Unknown backend: " ++ v.display
  | unshowable hindrance => hindrance.message
  | noTracers =>
    "opentelemetry-api is required for OTelBackend. " ++
      "Install it with: pip install 'flowgate[otel]'"
  | noBackend => ""

/-- The name of the type of exception that an error is. -/
def Error.typeName : Error → String
  | unknown _ => "ValueError"
  | unshowable hindrance => hindrance.typeName
  | noTracers => "RuntimeError"
  | noBackend => "AssertionError"

/-- The name of the tracer that is used by default. -/
def defaultTracer : String := "flowgate"

variable (t : Tracing)

/-- Makes a backend; one with a tracer needs the library. -/
def make (kind : BackendKind) : Except Error (Backend × Tracing) :=
  match kind with
  | .tracer _ =>
    if t.hasTracers then .ok (⟨t.made, kind⟩, { t with made := t.made + 1 }) else .error .noTracers
  | .log => .ok (⟨t.made, kind⟩, { t with made := t.made + 1 })

/-- Makes the backend that fits: a tracer if there is the library, else a log. -/
def detect : Backend × Tracing :=
  let kind := if t.hasTracers then .tracer defaultTracer else .log
  (⟨t.made, kind⟩, { t with made := t.made + 1 })

/-- Puts a backend in use. -/
def use (b : Backend) : Tracing := { t with backend := some b, configured := true }

/-- The backend in use; one is detected if none has been configured. -/
def current : Backend × Tracing :=
  match t.configured, t.backend with
  | true, some b => (b, t)
  | _, _ =>
    let (b, t) := t.detect
    (b, t.use b)

/-- Forgets the configuration. -/
def reset : Tracing := { t with backend := none, configured := false }

/-! ### Requests -/

/-- A request on the configuration. It may be refused, and what it has changed until then stays. -/
abbrev Request := ExceptT Error (StateM Tracing)

/-- What a request gives, and the configuration behind it. -/
def Request.outcome {α : Type} (q : Request α) (t : Tracing) : Except Error α × Tracing :=
  q.run.run t

/-- Makes a backend. -/
def making (kind : BackendKind) : Request Backend := do
  match (← get).make kind with
  | .ok (b, t) =>
    set t
    pure b
  | .error e => throw e

/-- Makes the backend that fits. -/
def detecting : Request Backend := modifyGet detect

/-- The error for a value that names no backend. -/
def refusal [Limits] (v : Value) : Error :=
  match v.hindrance? Limits.showing with
  | none => .unknown v
  | some hindrance => .unshowable hindrance

/-- The backend that a choice names, made if it is not there yet. -/
def choose [Limits] : Choice → Request Backend
  | .backend b => pure b
  | .value v =>
    match v.string? with
    | some "logging" => making .log
    | some "otel" => making (.tracer defaultTracer)
    | some "auto" => detecting
    | _ => throw (refusal v)

/-- Puts a backend in its place. -/
def place (b : Backend) : Request Unit := modify fun t => { t with backend := some b }

/-- Notes that a backend is configured. -/
def confirm : Request Unit := modify fun t => { t with configured := true }

/-- Puts the chosen backend in use. -/
def configure [Limits] (c : Choice) : Request Unit := do
  place (← choose c)
  confirm

/-- The backend in use, which there must be if one is said to be configured. -/
def lookUp : Request Backend := do
  let t ← get
  match t.configured, t.backend with
  | true, some b => pure b
  | true, none => throw .noBackend
  | false, _ =>
    let b ← detecting
    place b
    confirm
    pure b

end Tracing

end Stepwise
