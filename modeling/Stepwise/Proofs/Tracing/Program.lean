import Mathlib.Data.List.Basic
import Stepwise.Proofs.Session.Validation

/-!
# Programs that open spans

A program opens spans, runs blocks in sessions, checks flows, and raises and catches exceptions. It
can be told in outline, without a backend and without records: a span is then a block that hands on
whatever leaves its body.

* `Program.run`: how a program runs.
* `Program.outline`: the outline. It tells the closed spans as a tree, each with the exception that
  left it, and `Spans.records` writes a tree down, with the records of each span around those of
  the spans inside.
* `Program.Clear`: the spans are of logs, and no attribute has a name that is taken. Then the spans
  of the outline have no such attribute either (`clear_outline`).
-/

namespace Stepwise.Tracing

/-! ### Programs -/

/-- A program. -/
inductive Program where
  | done
  /-- an exception is raised -/
  | fail (e : Raised)
  /-- the sessions are changed in any way, and what comes next may depend on how they were -/
  | change (f : Ambient × Contexts → Ambient × Contexts) (rest : Ambient × Contexts → Program)
  /-- the body runs in a span of a backend -/
  | span (b : Backend) (operation : String) (flow : Value) (attributes : Entries String Value)
      (body rest : Program)
  /-- the body runs in a session of its own -/
  | session (flowName sessionId : Option String) (body rest : Program)
  /-- a flow is checked -/
  | validate (f : Flow) (rest : Program)
  /-- an exception that the body raises may be caught, and then a handler for it runs -/
  | attempt (body : Program) (catches : Raised → Bool) (handler : Raised → Program)
      (rest : Program)

/-- What has become of a program: the exception that it ended by, if any, and the state behind. -/
structure Course where
  raised : Option Raised := none
  state : State

namespace Course

/-- Goes on unless an exception has been raised. -/
def next (c : Course) (k : State → Course) : Course :=
  match c.raised with
  | none => k c.state
  | some _ => c

/-- Catches an exception and goes on with a handler for it. -/
def rescue (c : Course) (catches : Raised → Bool) (k : Raised → State → Course) : Course :=
  match c.raised with
  | none => c
  | some e => if catches e then k e c.state else c

/-- Leaves a span. -/
def exit (c : Course) (span : Span) : Course :=
  let (raised, state) := c.state.exitSpan span c.raised
  { raised, state }

/-- Leaves a session. -/
def leave (c : Course) (before : Option ContextId) : Course :=
  { c with state := c.state.leave before }

end Course

/-- The state with its sessions changed. -/
def changed (s : State) (f : Ambient × Contexts → Ambient × Contexts) : State :=
  { s.withContexts (f s.sessions).2 with ambient := (f s.sessions).1 }

/-- What a check raises. -/
def raisedBy : Except Violation Unit → Option Raised
  | .ok () => none
  | .error v => some (.violation v)

/-- **How a program runs.** -/
def Program.run [Limits] : Program → State → Course
  | done, s => { state := s }
  | fail e, s => { raised := some e, state := s }
  | change f rest, s => (rest s.sessions).run (changed s f)
  | span b operation flow attributes body rest, s =>
    match s.openSpan b operation flow attributes with
    | (.error e, s) => { raised := some (.refused e), state := s }
    | (.ok entered, s) => ((body.run s).exit entered).next rest.run
  | session flowName sessionId body rest, s =>
    match s.enter flowName sessionId with
    | .error _ => { raised := some .uncopied, state := s }
    | .ok (before, s) => ((body.run s).leave before).next rest.run
  | validate f rest, s =>
    Course.next { raised := raisedBy (s.validate f).1, state := (s.validate f).2 } rest.run
  | attempt body catches handler rest, s =>
    ((body.run s).rescue catches fun e => (handler e).run).next rest.run

/-! ### Closed spans -/

/-- What the record at the end of a span says besides the one at its start: the time it took, and
the type of the exception that left it, if any. -/
def closing (left : Option Raised) : Entries String LogField :=
  ("duration_ms", .elapsed) ::
    (left.map fun e => ("error", LogField.value (.text e.typeName))).toList

/-- A span that has been closed. -/
structure Closed where
  operation : String
  flow : Value
  /-- the session that it was opened in -/
  session : String
  attributes : Entries String Value
  /-- the exception that left it, if any -/
  left : Option Raised

namespace Closed
variable (c : Closed)

/-- What both records of a span say. -/
def fields : Entries String LogField := Span.logFields c.operation c.flow c.session c.attributes

/-- **What a span says under a name**: the attribute of this name, or else its flow, its operation or
its session. -/
def said (name : String) : Option LogField :=
  match Entries.get? name c.attributes.reverse with
  | some v => some (.value v)
  | none =>
    if name = "flow" then some (.value c.flow)
    else if name = "operation" then some (.value (.text c.operation))
    else if name = "session_id" then some (.value (.text c.session))
    else none

/-- The record at the start. -/
def start : Record := .log (c.operation ++ ".start") c.fields

/-- The record at the end. It repeats what the one at the start says. -/
def finish : Record := .log (c.operation ++ ".end") (c.fields ++ closing c.left)

end Closed

/-- The span that a check of a flow is. -/
def checking (f : Flow) (session : String) : Closed :=
  ⟨"validate", f.name.elim .null .text, session, [("step_count", .int f.places.length)],
    f.violation?.map .violation⟩

/-- Spans that have been closed, one after the other, each with the spans inside. -/
inductive Spans where
  | nil
  | cons (c : Closed) (inner rest : Spans)

namespace Spans

/-- Spans, and then others. -/
def append : Spans → Spans → Spans
  | nil, more => more
  | cons c inner rest, more => cons c inner (rest.append more)

/-- **The spans written down.** The two records of a span stand around those of the spans inside. -/
def records : Spans → List Record
  | nil => []
  | cons c inner rest => c.start :: inner.records ++ c.finish :: rest.records

/-- All the spans. -/
def all : Spans → List Closed
  | nil => []
  | cons c inner rest => c :: inner.all ++ rest.all

theorem records_append (spans more : Spans) :
    (spans.append more).records = spans.records ++ more.records := by
  induction spans with
  | nil => rfl
  | cons c inner rest _ ih => simp [append, records, ih]

theorem all_append (spans more : Spans) : (spans.append more).all = spans.all ++ more.all := by
  induction spans with
  | nil => rfl
  | cons c inner rest _ ih => simp [append, all, ih]

end Spans

/-! ### The outline of a program -/

/-- What a program does in outline: the exception that it ends by, if any, the spans it closes, and
a state of which only the sessions count. -/
structure Outline where
  raised : Option Raised := none
  spans : Spans := .nil
  state : State

namespace Outline

/-- Something, and then something else. -/
def followedBy (o d : Outline) : Outline := ⟨d.raised, o.spans.append d.spans, d.state⟩

/-- Goes on unless an exception has been raised. -/
def next (o : Outline) (k : State → Outline) : Outline :=
  match o.raised with
  | none => o.followedBy (k o.state)
  | some _ => o

/-- Catches an exception and goes on with a handler for it. -/
def rescue (o : Outline) (catches : Raised → Bool) (k : Raised → State → Outline) : Outline :=
  match o.raised with
  | none => o
  | some e => if catches e then o.followedBy (k e o.state) else o

/-- Puts a span around. What was raised inside goes on. -/
def within (o : Outline) (operation : String) (flow : Value) (session : String)
    (attributes : Entries String Value) : Outline :=
  { o with spans := .cons ⟨operation, flow, session, attributes, o.raised⟩ o.spans .nil }

/-- Leaves a session. -/
def leave (o : Outline) (before : Option ContextId) : Outline :=
  { o with state := o.state.leave before }

end Outline

/-- **The outline of a program.** A span belongs to the session in which it is opened; a check is a
span with nothing inside. -/
def Program.outline [Limits] : Program → State → Outline
  | done, s => { state := s }
  | fail e, s => { raised := some e, state := s }
  | change f rest, s => (rest s.sessions).outline (changed s f)
  | span b operation flow attributes body rest, s =>
    match attributes.find? fun e => Span.callNames.contains e.1 with
    | some e => { raised := some (.refused (.givenTwice b.kind.typeName e.1)), state := s }
    | none =>
      let (id, s) := s.correlationId .log
      ((body.outline s).within operation flow id attributes).next rest.outline
  | session flowName sessionId body rest, s =>
    match s.enter flowName sessionId with
    | .error _ => { raised := some .uncopied, state := s }
    | .ok (before, s) => ((body.outline s).leave before).next rest.outline
  | validate f rest, s =>
    let (id, s) := s.correlationId .log
    Outline.next ⟨f.violation?.map .violation, .cons (checking f id) .nil .nil, s⟩ rest.outline
  | attempt body catches handler rest, s =>
    ((body.outline s).rescue catches fun e => (handler e).outline).next rest.outline

/-- The names that a log record has already or gets at the end of a span. -/
def takenNames : List String := "duration_ms" :: "error" :: Span.reservedFields

/-- **Attributes with names of their own**, none of which is taken. -/
def Clear (attributes : Entries String Value) : Prop := ∀ e ∈ attributes, e.1 ∉ takenNames

instance (attributes : Entries String Value) : Decidable (Clear attributes) :=
  inferInstanceAs (Decidable (∀ e ∈ attributes, e.1 ∉ takenNames))

/-- **A program whose spans are of logs and have clear attributes.** -/
def Program.Clear : Program → Prop
  | done => True
  | fail _ => True
  | change _ rest => ∀ x, (rest x).Clear
  | span b _ _ attributes body rest =>
    b.kind = .log ∧ Tracing.Clear attributes ∧ body.Clear ∧ rest.Clear
  | session _ _ body rest => body.Clear ∧ rest.Clear
  | validate _ rest => rest.Clear
  | attempt body _ handler rest => body.Clear ∧ (∀ e, (handler e).Clear) ∧ rest.Clear

/-! ### The spans of an outline -/

/-- All spans have clear attributes. -/
def Outline.Clear (o : Outline) : Prop := ∀ c ∈ o.spans.all, Tracing.Clear c.attributes

section Clear
variable {o : Outline} (h : o.Clear)
include h

theorem Outline.Clear.followedBy {d : Outline} (hd : d.Clear) : (o.followedBy d).Clear := by
  unfold Outline.Clear Outline.followedBy
  rw [Spans.all_append]
  exact fun c hc => (List.mem_append.mp hc).elim (h c) (hd c)

theorem Outline.Clear.next {k : State → Outline} (hk : ∀ s, (k s).Clear) : (o.next k).Clear := by
  unfold Outline.next
  cases o.raised with
  | none => exact h.followedBy (hk _)
  | some e => exact h

theorem Outline.Clear.rescue {catches : Raised → Bool} {k : Raised → State → Outline}
    (hk : ∀ e s, (k e s).Clear) : (o.rescue catches k).Clear := by
  unfold Outline.rescue
  cases o.raised with
  | none => exact h
  | some e =>
    dsimp only
    split
    · exact h.followedBy (hk e _)
    · exact h

end Clear

theorem clear_checking (f : Flow) (session : String) : Clear (checking f session).attributes := by
  intro e he
  have hname : e.1 = "step_count" := congrArg Prod.fst (List.mem_singleton.mp he)
  rw [hname]
  decide

theorem clear_outline [Limits] (p : Program) (hp : p.Clear) (s : State) :
    (p.outline s).Clear := by
  induction p generalizing s with
  | done => exact nofun
  | fail e => exact nofun
  | change f rest ih => exact ih s.sessions (hp s.sessions) (changed s f)
  | span b operation flow attributes body rest ihbody ihrest =>
    obtain ⟨-, hclear, hbody, hrest⟩ := hp
    unfold Program.outline
    split
    · exact nofun
    · refine Outline.Clear.next ?_ (ihrest hrest)
      have hinner := ihbody hbody (s.correlationId .log).2
      simpa [Outline.Clear, Outline.within, Spans.all] using ⟨hclear, hinner⟩
  | session flowName sessionId body rest ihbody ihrest =>
    obtain ⟨hbody, hrest⟩ := hp
    unfold Program.outline
    split
    · exact nofun
    · next before t h =>
      have hinner : ((body.outline t).leave before).Clear := ihbody hbody t
      exact hinner.next (ihrest hrest)
  | validate f rest ih =>
    refine Outline.Clear.next ?_ (ih hp)
    simpa [Outline.Clear, Spans.all] using clear_checking f _
  | attempt body catches handler rest ihbody ihhandler ihrest =>
    obtain ⟨hbody, hhandler, hrest⟩ := hp
    exact ((ihbody hbody s).rescue fun e => ihhandler e (hhandler e)).next (ihrest hrest)

end Stepwise.Tracing
