import Mathlib.Data.List.Basic
import Stepwise.Proofs.Entries
import Stepwise.Proofs.Tracing.Configuration
import Stepwise.Proofs.Tracing.Program

/-!
# Records in brackets

Under a log the records of a program are those of its outline, and each span hands on what leaves
its body.

* `openSpan_log`, `exitSpan_log`: where no name is taken, a span is opened, and its records at the
  end say what it said at the start.
* `Agree`: a run goes along with an outline from states that tell the same of the sessions. There is
  one lemma for each statement, such as `agree_span`, and `alongside_run` joins them by induction on
  the program.
* `get?_fields`, `Clear.get?_finish`: what the two records of a span say, name by name.
* `records_bracketed`: so what a program raises is what its outline does, and what it records is the
  tree of its outline written down.
-/

namespace Stepwise.Tracing

/-! ### What a span of a log does -/

/-- A span starts in the current session, which there is from then on. -/
theorem startSpan_log {s : State} {c : Closed} {b : Backend} (hb : b.kind = .log)
    (hsession : (s.correlationId .log).1 = c.session) :
    s.startSpan b c.operation c.flow c.attributes =
      (.logged c.operation c.fields, (s.correlationId .log).2.emit c.start) := by
  unfold State.startSpan
  rw [hb]
  dsimp only
  rw [hsession]
  rfl

section Log
variable {c : Closed} (h : Clear c.attributes)
include h

/-- The fields have three fixed names and those of the attributes, so that none is taken. -/
theorem Clear.fields : ∀ e ∈ c.fields, e.1 ∉ takenNames := by
  have hfixed : ∀ e ∈ ([("flow", .value c.flow), ("operation", .value (.text c.operation)),
      ("session_id", .value (.text c.session))] : Entries String LogField),
      e.1 ∉ takenNames ∧ True := by
    simp only [List.forall_mem_cons]
    exact ⟨⟨by decide, trivial⟩, ⟨by decide, trivial⟩, ⟨by decide, trivial⟩, nofun⟩
  have hall : ∀ e ∈ c.fields, e.1 ∉ takenNames ∧ True := by
    unfold Closed.fields Span.logFields
    refine List.foldlRecOn (motive := fun es : Entries String LogField =>
      ∀ e ∈ es, e.1 ∉ takenNames ∧ True) _ _ hfixed fun es hes e he => ?_
    obtain ⟨a, ha, rfl⟩ := List.mem_map.mp he
    exact Entries.forall_insert (P := (· ∉ takenNames)) (Q := fun _ => True) hes (h a ha) trivial
  exact fun e he => (hall e he).1

theorem Clear.hasKey_fields {name : String} (hname : name ∈ takenNames) :
    c.fields.hasKey name = false := by
  refine Bool.eq_false_iff.mpr fun hkey => ?_
  obtain ⟨j, hj, hjname⟩ := Entries.hasKey_iff.mp hkey
  obtain ⟨e, he, rfl⟩ := List.mem_map.mp hj
  exact h.fields e he (eq_of_beq hjname ▸ hname)

theorem Clear.find?_fields :
    (c.fields.find? fun e => Span.reservedFields.contains e.1) = none := by
  refine List.find?_eq_none.mpr fun e he hcontains => h.fields e he ?_
  exact List.mem_cons_of_mem _ (List.mem_cons_of_mem _ (List.contains_iff_mem.mp hcontains))

/-- The record at the end says what the one at the start does, and how the span was left. -/
theorem Clear.endFields :
    Span.endFields c.fields (c.left.map Raised.typeName) = c.fields ++ closing c.left := by
  have hduration : c.fields.insert "duration_ms" .elapsed =
      c.fields ++ [("duration_ms", .elapsed)] :=
    Entries.insert_of_hasKey_eq_false (h.hasKey_fields (by decide)) _
  unfold Span.endFields
  rw [hduration]
  cases c.left with
  | none => rfl
  | some e =>
    have herror : (c.fields ++ [("duration_ms", LogField.elapsed)]).hasKey "error" = false := by
      have hfields : c.fields.hasKey "error" = false := h.hasKey_fields (by decide)
      unfold Entries.hasKey at hfields ⊢
      rw [List.any_append, hfields]
      rfl
    show Entries.insert "error" _ _ = _
    rw [Entries.insert_of_hasKey_eq_false herror, List.append_assoc]
    rfl

variable (s : State)

theorem closeSpan_log : s.closeSpan (.logged c.operation c.fields) (c.left.map Raised.typeName) =
    s.emit c.finish := by
  unfold State.closeSpan
  dsimp only
  rw [h.endFields]
  rfl

/-- What left the body of a span leaves the span. -/
theorem exitSpan_log : s.exitSpan (.logged c.operation c.fields) c.left =
    (c.left, s.emit c.finish) := by
  have hnone : ((c.fields ++ closing c.left).find? fun e => Span.reservedFields.contains e.1) =
      none := by
    rw [List.find?_append, h.find?_fields]
    cases c.left <;> rfl
  unfold State.exitSpan
  dsimp only
  rw [closeSpan_log h, h.endFields, hnone]

/-- A span of a log is opened where none of its attributes has a name that is taken. -/
theorem openSpan_log {b : Backend} (hb : b.kind = .log)
    (hsession : (s.correlationId .log).1 = c.session)
    (hcall : (c.attributes.find? fun e => Span.callNames.contains e.1) = none) :
    s.openSpan b c.operation c.flow c.attributes =
      (.ok (.logged c.operation c.fields), (s.correlationId .log).2.emit c.start) := by
  unfold State.openSpan
  rw [hcall]
  dsimp only
  rw [startSpan_log hb hsession]
  dsimp only [Span.fields]
  rw [h.find?_fields]

end Log

/-! ### A log in use -/

/-- **A log is in use**, or would be if one were asked for. -/
def Logs (s : State) : Prop := s.backend.1.kind = .log

/-- Whatever leaves the configuration as it is leaves a log in use. -/
theorem Logs.congr {s t : State} (h : Logs s) (hsame : t.shared.tracing = s.shared.tracing) :
    Logs t := by
  unfold Logs State.backend at h ⊢
  rw [hsame]
  exact h

theorem Logs.backend {s : State} (h : Logs s) : Logs s.backend.2 := by
  have hcurrent := (inUse_current s.shared.tracing).current
  have hsame : s.backend.2.shared.tracing.current.1 = s.backend.1 := congrArg Prod.fst hcurrent
  unfold Logs
  show s.backend.2.shared.tracing.current.1.kind = .log
  rw [hsame]
  exact h

theorem shared_correlationId (s : State) :
    (s.correlationId .log).2.shared.tracing = s.shared.tracing ∧
      (s.correlationId .log).2.shared.records = s.shared.records := by
  unfold State.correlationId State.ensureContext
  cases s.sessionId? with
  | some id => exact ⟨rfl, rfl⟩
  | none => cases s.ambient.current <;> exact ⟨rfl, rfl⟩

theorem shared_enter [Limits] {s t : State} {flowName sessionId : Option String}
    {before : Option ContextId} (h : s.enter flowName sessionId = .ok (before, t)) :
    t.shared.tracing = s.shared.tracing ∧ t.shared.records = s.shared.records := by
  unfold State.enter at h
  cases hfor : s.contextFor flowName sessionId with
  | error e => rw [hfor] at h; cases h
  | ok made =>
    rw [hfor] at h
    cases h
    exact ⟨rfl, rfl⟩

theorem ensureContext_congr {s t : State} (h : s.sessions = t.sessions) :
    s.ensureContext.1 = t.ensureContext.1 ∧
      s.ensureContext.2.sessions = t.ensureContext.2.sessions := by
  have hambient := State.ambient_congr h
  unfold State.ensureContext
  rw [hambient, State.contexts_congr h]
  cases t.ambient.current with
  | some i => exact ⟨rfl, h⟩
  | none =>
    refine ⟨rfl, ?_⟩
    simp only [State.sessions, State.setCurrent, State.withContexts, hambient]

/-- The session of a span is told by the sessions, and so is what asking for it leaves. -/
theorem correlationId_congr {s t : State} (h : s.sessions = t.sessions) :
    (s.correlationId .log).1 = (t.correlationId .log).1 ∧
      (s.correlationId .log).2.sessions = (t.correlationId .log).2.sessions := by
  obtain ⟨hcurrent, hsessions⟩ := ensureContext_congr h
  unfold State.correlationId
  rw [State.sessionId?_congr h]
  cases t.sessionId? with
  | some id => exact ⟨rfl, h⟩
  | none =>
    refine ⟨?_, hsessions⟩
    dsimp only [State.context?]
    rw [hcurrent, State.contexts_congr hsessions]

/-- Under a log a check is a span with nothing inside. -/
theorem validate_log {s : State} (h : Logs s) (f : Flow) :
    (s.validate f).2 =
      ((s.backend.2.correlationId .log).2.emit
        (checking f (s.backend.2.correlationId .log).1).start).emit
        (checking f (s.backend.2.correlationId .log).1).finish := by
  have hclear := clear_checking f (s.backend.2.correlationId .log).1
  have hstart : s.backend.2.startSpan s.backend.1 "validate" (f.name.elim .null .text)
      (State.checkAttributes f) = _ :=
    startSpan_log (c := checking f (s.backend.2.correlationId .log).1) h rfl
  have hclose := closeSpan_log hclear
  unfold State.validate Flow.check
  dsimp only at hclose ⊢
  rw [hstart]
  unfold checking at hclose ⊢
  dsimp only at hclose ⊢
  cases hviolation : f.violation? with
  | none =>
    rw [hviolation] at hclose
    exact hclose _
  | some v =>
    rw [hviolation] at hclose
    exact hclose _

/-! ### A run goes along with the outline -/

/-- **A run goes along with an outline**, where something has been recorded before. -/
structure Alongside (before : List Record) (c : Course) (o : Outline) : Prop where
  raised : c.raised = o.raised
  records : c.state.shared.records = before ++ o.spans.records
  sessions : c.state.sessions = o.state.sessions
  logs : Logs c.state

/-- **What goes on, goes along** in states that tell the same of the sessions. -/
def Agree (k : State → Course) (l : State → Outline) : Prop :=
  ∀ s t, s.sessions = t.sessions → Logs s → Alongside s.shared.records (k s) (l t)

section Alongside
variable {before : List Record} {c : Course} {o : Outline} (h : Alongside before c o)
include h

theorem Alongside.followedBy {k : State → Course} {l : State → Outline} (hk : Agree k l) :
    Alongside before (k c.state) (o.followedBy (l o.state)) := by
  obtain ⟨hraised, hrecords, hsessions, hlogs⟩ := hk c.state o.state h.sessions h.logs
  refine ⟨hraised, ?_, hsessions, hlogs⟩
  show (k c.state).state.shared.records = before ++ (o.spans.append (l o.state).spans).records
  rw [hrecords, h.records, Spans.records_append, List.append_assoc]

theorem Alongside.next {k : State → Course} {l : State → Outline} (hk : Agree k l) :
    Alongside before (c.next k) (o.next l) := by
  have hfollowed := h.followedBy hk
  unfold Course.next Outline.next
  rw [h.raised]
  cases o.raised with
  | none => exact hfollowed
  | some e => exact h

theorem Alongside.rescue (catches : Raised → Bool) {k : Raised → State → Course}
    {l : Raised → State → Outline} (hk : ∀ e, Agree (k e) (l e)) :
    Alongside before (c.rescue catches k) (o.rescue catches l) := by
  unfold Course.rescue Outline.rescue
  rw [h.raised]
  cases o.raised with
  | none => exact h
  | some e =>
    by_cases hcatches : catches e
    · simp only [hcatches, if_true]
      exact h.followedBy (hk e)
    · simp only [hcatches]
      exact h

theorem Alongside.leave (entered : Option ContextId) :
    Alongside before (c.leave entered) (o.leave entered) where
  raised := h.raised
  records := h.records
  sessions := by
    have hambient := State.ambient_congr h.sessions
    have hcontexts := State.contexts_congr h.sessions
    simp only [Course.leave, Outline.leave, State.leave, State.setCurrent, State.sessions,
      hambient, hcontexts]
  logs := h.logs.congr rfl

end Alongside

/-- A span is put around a body that goes along. -/
theorem Alongside.exit {before : List Record} {c : Course} {o : Outline} {operation : String}
    {flow : Value} {session : String} {attributes : Entries String Value}
    (hclear : Clear attributes)
    (h : Alongside (before ++ [(Closed.mk operation flow session attributes o.raised).start]) c o) :
    Alongside before
      (c.exit (.logged operation (Closed.mk operation flow session attributes o.raised).fields))
      (o.within operation flow session attributes) := by
  have hexit := exitSpan_log (c := ⟨operation, flow, session, attributes, o.raised⟩) hclear c.state
  dsimp only at hexit
  unfold Course.exit Outline.within
  rw [h.raised, hexit]
  refine ⟨rfl, ?_, h.sessions, h.logs.congr rfl⟩
  show c.state.shared.records ++ [_] = before ++ (_ :: o.spans.records ++ [_])
  rw [h.records, List.append_assoc, List.append_assoc]
  rfl

section Runs
variable [Limits]

theorem agree_change {rest : Ambient × Contexts → Program}
    (hrest : ∀ x, Agree (rest x).run (rest x).outline)
    (f : Ambient × Contexts → Ambient × Contexts) :
    Agree (Program.change f rest).run (Program.change f rest).outline := by
  intro s t hsessions hlogs
  have hchanged : (changed s f).sessions = (changed t f).sessions := by
    unfold changed
    rw [hsessions]
    rfl
  unfold Program.run Program.outline
  rw [hsessions]
  exact hrest t.sessions (changed s f) (changed t f) hchanged (hlogs.congr rfl)

section Agree
variable {rest : Program} (hrest : Agree rest.run rest.outline)
include hrest

theorem agree_span {b : Backend} (hb : b.kind = .log) {attributes : Entries String Value}
    (hclear : Clear attributes) {body : Program} (hbody : Agree body.run body.outline)
    (operation : String) (flow : Value) :
    Agree (Program.span b operation flow attributes body rest).run
      (Program.span b operation flow attributes body rest).outline := by
  intro s t hsessions hlogs
  unfold Program.run Program.outline
  cases hcall : attributes.find? fun e => Span.callNames.contains e.1 with
  | some e =>
    unfold State.openSpan
    rw [hcall]
    exact ⟨rfl, (List.append_nil _).symm, hsessions, hlogs⟩
  | none =>
    let c : Closed := ⟨operation, flow, (t.correlationId .log).1, attributes, none⟩
    obtain ⟨hid, hids⟩ := correlationId_congr hsessions
    obtain ⟨htracing, hrecords⟩ := shared_correlationId s
    have hopen : s.openSpan b operation flow attributes = _ :=
      openSpan_log (c := c) hclear s hb hid hcall
    have hinner := hbody ((s.correlationId .log).2.emit c.start) (t.correlationId .log).2 hids
      (hlogs.congr htracing)
    rw [hopen]
    refine Alongside.next (Alongside.exit hclear ?_) hrest
    rw [← hrecords]
    exact hinner

theorem agree_session {body : Program} (hbody : Agree body.run body.outline)
    (flowName sessionId : Option String) :
    Agree (Program.session flowName sessionId body rest).run
      (Program.session flowName sessionId body rest).outline := by
  intro s t hsessions hlogs
  unfold Program.run Program.outline
  rcases State.enter_congr hsessions flowName sessionId with
    ⟨e, hs, ht⟩ | ⟨before, s', t', hs, ht, hentered⟩
  · rw [hs, ht]
    exact ⟨rfl, (List.append_nil _).symm, hsessions, hlogs⟩
  · obtain ⟨htracing, hrecords⟩ := shared_enter hs
    have hinner := hbody s' t' hentered (hlogs.congr htracing)
    rw [hrecords] at hinner
    rw [hs, ht]
    exact (hinner.leave before).next hrest

theorem agree_validate (f : Flow) :
    Agree (Program.validate f rest).run (Program.validate f rest).outline := by
  intro s t hsessions hlogs
  obtain ⟨hid, hids⟩ := correlationId_congr (s.sessions_backend.trans hsessions)
  obtain ⟨htracing, hrecords⟩ := shared_correlationId s.backend.2
  have hvalidate := validate_log hlogs f
  refine Alongside.next ⟨?_, ?_, ?_, ?_⟩ hrest
  · show raisedBy (s.validate f).1 = f.violation?.map .violation
    rw [State.validate_fst, Flow.check]
    cases f.violation? <;> rfl
  · rw [hvalidate, hid]
    show ((s.backend.2.correlationId .log).2.shared.records ++ [_]) ++ [_] = _
    rw [hrecords, List.append_assoc]
    rfl
  · rw [hvalidate]
    exact hids
  · rw [hvalidate]
    exact hlogs.backend.congr htracing

end Agree

/-- **A run goes along with the outline**, whatever is raised and caught. -/
theorem alongside_run (p : Program) (hp : p.Clear) : Agree p.run p.outline := by
  induction p with
  | done => exact fun s t hsessions hlogs => ⟨rfl, (List.append_nil _).symm, hsessions, hlogs⟩
  | fail e => exact fun s t hsessions hlogs => ⟨rfl, (List.append_nil _).symm, hsessions, hlogs⟩
  | change f rest ih => exact agree_change (fun x => ih x (hp x)) f
  | span b operation flow attributes body rest ihbody ihrest =>
    obtain ⟨hb, hclear, hbody, hrest⟩ := hp
    exact agree_span (ihrest hrest) hb hclear (ihbody hbody) operation flow
  | session flowName sessionId body rest ihbody ihrest =>
    obtain ⟨hbody, hrest⟩ := hp
    exact agree_session (ihrest hrest) (ihbody hbody) flowName sessionId
  | validate f rest ih => exact agree_validate (ih hp) f
  | attempt body catches handler rest ihbody ihhandler ihrest =>
    obtain ⟨hbody, hhandler, hrest⟩ := hp
    intro s t hsessions hlogs
    have hrescued := (ihbody hbody s t hsessions hlogs).rescue catches fun e =>
      ihhandler e (hhandler e)
    exact hrescued.next (ihrest hrest)

end Runs

/-! ### What the records say -/

/-- The record at the start says what the span does. -/
theorem get?_fields (c : Closed) (name : String) : c.fields.get? name = c.said name := by
  have hentered := Entries.get?_foldl_insert
    (c.attributes.map fun e => (e.1, LogField.value e.2))
    [("flow", .value c.flow), ("operation", .value (.text c.operation)),
      ("session_id", .value (.text c.session))] name
  rw [← List.map_reverse, Entries.get?_mapValues] at hentered
  refine Eq.trans hentered ?_
  unfold Closed.said
  cases Entries.get? name c.attributes.reverse with
  | some v => rfl
  | none =>
    rw [Entries.get?_cons, Entries.get?_cons, Entries.get?_cons]
    simp only [Entries.get?, beq_iff_eq, @eq_comm String _ name]
    rfl

section Said
variable {c : Closed} (h : Clear c.attributes)
include h

theorem Clear.said_eq_none {name : String} (hname : name ∈ takenNames) : c.said name = none := by
  rw [← get?_fields, ← Option.not_isSome_iff_eq_none, Entries.isSome_get?, h.hasKey_fields hname]
  exact Bool.false_ne_true

/-- The record at the end says the same, and how long the span took and what left it. -/
theorem Clear.get?_finish (name : String) : (c.fields ++ closing c.left).get? name =
    if name = "duration_ms" then some .elapsed
    else if name = "error" then c.left.map fun e => .value (.text e.typeName)
    else c.said name := by
  rw [Entries.get?_append, get?_fields]
  by_cases hduration : name = "duration_ms"
  · subst hduration
    rw [h.said_eq_none (by decide)]
    rfl
  by_cases herror : name = "error"
  · subst herror
    rw [h.said_eq_none (by decide)]
    cases c.left <;> rfl
  · have hnone : (closing c.left).get? name = none := by
      unfold closing
      rw [Entries.get?_cons, if_neg (by simp [Ne.symm hduration])]
      cases c.left with
      | none => rfl
      | some e => exact (Entries.get?_cons ..).trans (if_neg (by simp [Ne.symm herror]))
    rw [hnone, Option.or_none, if_neg hduration, if_neg herror]

end Said

/-- **The records of spans are in brackets**, where the spans are of logs and a log is in use. A
program raises what its outline does, in which a span hands on whatever leaves its body. What it
records is the tree of its spans written down: the two records of a span stand around those of the
spans inside, and the one at the end repeats the one at the start, whatever has become of the
session. Only the one at the end says how long the span took, and it names an error exactly if an
exception left the span, by the type of that exception. A check raises what it raises without a
span. -/
theorem records_bracketed [Limits] (p : Program) (hp : p.Clear) (s : State)
    (hs : s.backend.1.kind = .log) :
    (p.run s).raised = (p.outline s).raised ∧
    (p.run s).state.shared.records = s.shared.records ++ (p.outline s).spans.records ∧
    (∀ c ∈ (p.outline s).spans.all, ∀ name,
      c.fields.get? name = c.said name ∧ (name ∈ takenNames → c.said name = none) ∧
      (c.fields ++ closing c.left).get? name =
        if name = "duration_ms" then some .elapsed
        else if name = "error" then c.left.map fun e => .value (.text e.typeName)
        else c.said name) ∧
    ∀ t f, (State.validate t f).1 = f.check := by
  obtain ⟨hraised, hrecords, -, -⟩ := alongside_run p hp s s rfl hs
  refine ⟨hraised, hrecords, fun c hc name => ?_, State.validate_fst⟩
  have hclear := clear_outline p hp s c hc
  exact ⟨get?_fields c name, hclear.said_eq_none, hclear.get?_finish name⟩

/-- A log. -/
def someLog : Backend := ⟨7, .log⟩

/-- In a session and a span another session becomes the current one, a check inside another span
fails, and the handler for what it raises raises something else. -/
def entangled : Program :=
  .session (some "f") none
    (.span someLog "outer" (.text "f") [("n", .int 1)]
      (.change (fun x => ({ x.1 with current := none }, x.2)) fun _ =>
        .attempt
          (.span someLog "inner" .null [] (.validate (.ofSteps (some "f") none []) .done) .done)
          (fun _ => true) (fun _ => .fail (.own "ValueError" 1)) .done)
      .done)
    .done

section Frames
attribute [local instance] Limits.thousandFrames

/-- A span keeps the session that it was opened in, and each exception is named where it leaves a
span. -/
theorem entangled_bracketed : entangled.Clear ∧ State.logging.backend.1.kind = .log ∧
    (entangled.run State.logging).raised = some (.own "ValueError" 1) ∧
    (entangled.run State.logging).state.shared.records =
      let first := LogField.value (.text (Contexts.identifier 1))
      let second := LogField.value (.text (Contexts.identifier 2))
      let outer := [("flow", .value (.text "f")), ("operation", .value (.text "outer")),
        ("session_id", first), ("n", .value (.int 1))]
      let inner := [("flow", .value .null), ("operation", .value (.text "inner")),
        ("session_id", second)]
      let check := [("flow", .value (.text "f")), ("operation", .value (.text "validate")),
        ("session_id", second), ("step_count", .value (.int 0))]
      let left (type : String) :=
        [("duration_ms", .elapsed), ("error", LogField.value (.text type))]
      [.log "outer.start" outer, .log "inner.start" inner, .log "validate.start" check,
        .log "validate.end" (check ++ left "FlowValidationError"),
        .log "inner.end" (inner ++ left "FlowValidationError"),
        .log "outer.end" (outer ++ left "ValueError")] := by
  have hinner : Clear [] := by decide
  have houter : Clear [("n", .int 1)] := by decide
  have hclear : entangled.Clear :=
    ⟨⟨rfl, houter, fun _ => ⟨⟨rfl, hinner, trivial, trivial⟩, fun _ => trivial, trivial⟩, trivial⟩,
      trivial⟩
  obtain ⟨hraised, hrecords, -, -⟩ := records_bracketed entangled hclear State.logging rfl
  exact ⟨hclear, rfl, hraised.trans rfl, hrecords.trans rfl⟩

end Frames

end Stepwise.Tracing
