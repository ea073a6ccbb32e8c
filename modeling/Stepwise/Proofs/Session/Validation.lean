import Mathlib.Data.List.Basic
import Stepwise.Tracing.Span

/-!
# Sessions and validation

A flow is checked inside a span, and a log asks for the session of each span. Where there is no
current context, the log makes one to answer, and that one stays current.

* `sessions`: what all operations on sessions look at, the current context and the contexts there
  are. Answers, tags and entered sessions are told by it (`tagged_congr`, `enter_congr`).
* `openSpan_checkAttributes`: the span of a validation is never refused.
* `validate_fst`, `sessions_validate`: in every state a validation answers what the check of the
  flow does, and leaves of the sessions what asking for the session of its span leaves.
* `validate_keeps_iff`: so a validation leaves the current context as it was if and only if a tracer
  is in use or there is a context.
* `not_kept_log`: under a log, later events are tagged and later sessions share one identifier.
-/

namespace Stepwise.State

/-- **What sessions are about**: what belongs to the task, and the contexts there are. -/
def sessions (s : State) : Ambient × Contexts := (s.ambient, s.shared.contexts)

/-- **A log where there is no context**: whoever asks for the session makes one. -/
def Unattended (s : State) : Prop :=
  s.shared.tracing.current.1.kind = .log ∧ s.ambient.current = none

/-! ### What is told by the sessions -/

section Congr
variable {s t : State} (h : s.sessions = t.sessions)
include h

theorem ambient_congr : s.ambient = t.ambient := congrArg Prod.fst h

theorem contexts_congr : s.shared.contexts = t.shared.contexts := congrArg Prod.snd h

theorem currentContext?_congr : s.currentContext? = t.currentContext? := by
  have hget : s.context? = t.context? := by
    unfold context?
    rw [contexts_congr h]
  unfold currentContext?
  rw [ambient_congr h, hget]

theorem sessionId?_congr : s.sessionId? = t.sessionId? := by
  unfold sessionId?
  rw [currentContext?_congr h]

theorem tagged_congr : s.tagged = t.tagged := by
  funext event
  unfold tagged
  rw [currentContext?_congr h]

/-- Sessions are entered alike, or refused alike. -/
theorem enter_congr [Limits] (flowName sessionId : Option String) :
    (∃ e, s.enter flowName sessionId = .error e ∧ t.enter flowName sessionId = .error e) ∨
    ∃ before s' t', s.enter flowName sessionId = .ok (before, s') ∧
      t.enter flowName sessionId = .ok (before, t') ∧ s'.sessions = t'.sessions := by
  have hfor : s.contextFor flowName sessionId = t.contextFor flowName sessionId := by
    unfold contextFor
    rw [currentContext?_congr h, contexts_congr h]
  have hambient := ambient_congr h
  unfold enter
  rw [hfor, hambient]
  cases t.contextFor flowName sessionId with
  | error e => exact Or.inl ⟨e, rfl, rfl⟩
  | ok made =>
    refine Or.inr ⟨t.ambient.current, _, _, rfl, rfl, ?_⟩
    simp only [sessions, setCurrent, withContexts, hambient]

end Congr

/-! ### What a span does to the sessions -/

section Span
variable (s : State)

@[simp] theorem sessions_backend : s.backend.2.sessions = s.sessions := rfl

@[simp] theorem sessions_closeSpan (span : Span) (exception : Option String) :
    (s.closeSpan span exception).sessions = s.sessions := by
  cases span <;> rfl

/-- A tracer answers without a session. -/
theorem correlationId_tracer (name : String) : (s.correlationId (.tracer name)).2 = s := by
  unfold correlationId
  cases s.sessionId? <;> rfl

theorem correlationId_of_current {i : ContextId} (h : s.ambient.current = some i)
    (kind : BackendKind) : (s.correlationId kind).2 = s := by
  cases kind with
  | tracer name => exact correlationId_tracer s name
  | log =>
    have hensure : s.ensureContext = (i, s) := by
      unfold ensureContext
      rw [h]
    unfold correlationId
    cases s.sessionId? with
    | some id => rfl
    | none => rw [hensure]

/-- A log makes a context where there is none. -/
theorem sessions_correlationId_log (h : s.ambient.current = none) :
    (s.correlationId .log).2.sessions =
      ({ s.ambient with current := some s.shared.contexts.all.length },
        { all := s.shared.contexts.all ++
            [{ sessionId := Contexts.identifier (s.shared.contexts.issued + 1) }],
          issued := s.shared.contexts.issued + 1 }) := by
  have hnone : s.sessionId? = none := by
    unfold sessionId? currentContext?
    rw [h]
    rfl
  unfold correlationId ensureContext
  rw [hnone, h]
  rfl

/-- **Opening a span asks for its session.** -/
theorem sessions_startSpan (b : Backend) (operation : String) (flow : Value)
    (attributes : Entries String Value) :
    (s.startSpan b operation flow attributes).2.sessions =
      (s.correlationId b.kind).2.sessions := by
  obtain ⟨number, kind⟩ := b
  cases kind with
  | tracer name =>
    rw [correlationId_tracer]
    rfl
  | log => rfl

/-- **The span of a validation is never refused**: none of its attributes has a name that is taken. -/
theorem openSpan_checkAttributes (b : Backend) (f : Flow) (operation : String) (flow : Value) :
    s.openSpan b operation flow (checkAttributes f) =
      (.ok (s.startSpan b operation flow (checkAttributes f)).1,
        (s.startSpan b operation flow (checkAttributes f)).2) := by
  obtain ⟨number, kind⟩ := b
  cases kind <;> rfl

end Span

/-! ### Validation -/

/-- The answer is that of the check, whatever backend is in use. -/
theorem validate_fst (s : State) (f : Flow) : (s.validate f).1 = f.check := by
  unfold validate
  dsimp only
  cases f.check <;> rfl

/-- A validation leaves of the sessions what asking for the session of its span leaves. -/
theorem sessions_validate (s : State) (f : Flow) : (s.validate f).2.sessions =
    (s.backend.2.correlationId s.backend.1.kind).2.sessions := by
  rw [← sessions_startSpan s.backend.2 s.backend.1 "validate" (f.name.elim .null .text)
    (checkAttributes f)]
  unfold validate
  dsimp only
  cases f.check <;> exact sessions_closeSpan ..

theorem sessions_validate_of_attended {s : State} (h : ¬ s.Unattended) (f : Flow) :
    (s.validate f).2.sessions = s.sessions := by
  rw [sessions_validate]
  cases hcurrent : s.ambient.current with
  | some i => rw [correlationId_of_current s.backend.2 hcurrent, sessions_backend]
  | none =>
    cases hkind : s.backend.1.kind with
    | log => exact absurd ⟨hkind, hcurrent⟩ h
    | tracer name => rw [correlationId_tracer, sessions_backend]

theorem sessions_validate_of_unattended {s : State} (h : s.Unattended) (f : Flow) :
    (s.validate f).2.sessions =
      ({ s.ambient with current := some s.shared.contexts.all.length },
        { all := s.shared.contexts.all ++
            [{ sessionId := Contexts.identifier (s.shared.contexts.issued + 1) }],
          issued := s.shared.contexts.issued + 1 }) := by
  obtain ⟨hkind, hcurrent⟩ := h
  have hlog : s.backend.1.kind = .log := hkind
  rw [sessions_validate, hlog]
  exact sessions_correlationId_log s.backend.2 hcurrent

/-- The context that a validation makes where there is none. -/
theorem currentContext?_validate {s : State} (h : s.Unattended) (f : Flow) :
    (s.validate f).2.currentContext? =
      some { sessionId := Contexts.identifier (s.shared.contexts.issued + 1) } := by
  have hsessions := sessions_validate_of_unattended h f
  have hambient : (s.validate f).2.ambient.current = some s.shared.contexts.all.length := by
    rw [show (s.validate f).2.ambient = _ from congrArg Prod.fst hsessions]
  have hcontexts : (s.validate f).2.shared.contexts.all = s.shared.contexts.all ++
      [{ sessionId := Contexts.identifier (s.shared.contexts.issued + 1) }] := by
    rw [show (s.validate f).2.shared.contexts = _ from congrArg Prod.snd hsessions]
  unfold currentContext?
  rw [hambient, Option.bind_some, context?, Contexts.get?, hcontexts, List.getElem?_concat_length]

/-! ### Sessions entered one after the other -/

section Visits
variable [Limits]

/-- A session is entered and left again: its identifier, and the state behind it. -/
def visit (s : State) (flowName : String) : Option String × State :=
  match s.enter (some flowName) none with
  | .ok (before, t) => (t.sessionId?, t.leave before)
  | .error _ => (none, s)

/-- The identifiers of sessions that are entered one after the other, each left before the next. -/
def visits : State → List String → List (Option String)
  | _, [] => []
  | s, name :: names => (s.visit name).1 :: visits (s.visit name).2 names

theorem visit_congr {s t : State} (h : s.sessions = t.sessions) (flowName : String) :
    (s.visit flowName).1 = (t.visit flowName).1 ∧
      (s.visit flowName).2.sessions = (t.visit flowName).2.sessions := by
  unfold visit
  rcases enter_congr h (some flowName) none with
    ⟨e, hs, ht⟩ | ⟨before, s', t', hs, ht, hentered⟩
  · rw [hs, ht]
    exact ⟨rfl, h⟩
  · rw [hs, ht]
    refine ⟨sessionId?_congr hentered, ?_⟩
    simp only [leave, setCurrent, sessions, ambient_congr hentered, contexts_congr hentered]

theorem visits_congr {s t : State} (h : s.sessions = t.sessions) (names : List String) :
    s.visits names = t.visits names := by
  induction names generalizing s t with
  | nil => rfl
  | cons name names ih =>
    obtain ⟨hid, hrest⟩ := visit_congr h name
    rw [visits, visits, hid, ih hrest]

/-- Inside a context without metadata a session takes over the identifier, and leaving it leaves the
context. -/
theorem visit_of_current {s : State} {c : Context} (hc : s.currentContext? = some c)
    (hid : c.sessionId ≠ "") (hempty : c.metadata = []) (flowName : String) :
    (s.visit flowName).1 = some c.sessionId ∧
      (s.visit flowName).2.currentContext? = some c := by
  obtain ⟨i, hi, hget⟩ := Option.bind_eq_some_iff.mp hc
  have hcopied : c.copied = .ok [] := by
    unfold Context.copied
    rw [hempty]
    rfl
  have hgiven : (some c.sessionId).filter (fun id => decide (id ≠ "")) = some c.sessionId := by
    simp [Option.filter, hid]
  have hfork : s.contextFor (some flowName) none = .ok (s.shared.contexts.add
      ⟨c.sessionId, Contexts.forkName c (some flowName), []⟩) := by
    unfold contextFor
    rw [hc]
    show s.shared.contexts.fork c (some flowName) = _
    unfold Contexts.fork
    rw [hcopied]
    show Except.ok _ = Except.ok _
    unfold Contexts.create
    rw [hgiven]
  have henter : s.enter (some flowName) none = .ok (s.ambient.current,
      (s.withContexts (s.shared.contexts.add
        ⟨c.sessionId, Contexts.forkName c (some flowName), []⟩).2).setCurrent
          (some s.shared.contexts.all.length)) := by
    unfold enter
    rw [hfork]
    rfl
  unfold visit
  rw [henter]
  constructor
  · simp [sessionId?, currentContext?, context?, Contexts.get?, setCurrent, withContexts,
      Contexts.add]
  · have hlt : i < s.shared.contexts.all.length := (List.getElem?_eq_some_iff.mp hget).1
    have hget' : s.shared.contexts.all[i]? = some c := hget
    simp [leave, currentContext?, context?, Contexts.get?, setCurrent, withContexts,
      Contexts.add, hi, List.getElem?_append_left hlt, hget']

theorem visits_of_current {s : State} {c : Context} (hc : s.currentContext? = some c)
    (hid : c.sessionId ≠ "") (hempty : c.metadata = []) (names : List String) :
    s.visits names = names.map fun _ => some c.sessionId := by
  induction names generalizing s with
  | nil => rfl
  | cons name names ih =>
    obtain ⟨hname, hrest⟩ := visit_of_current hc hid hempty name
    rw [visits, hname, ih hrest, List.map_cons]

end Visits

theorem identifier_ne_empty (n : Nat) : Contexts.identifier n ≠ "" := by
  intro h
  have hlen : (Text.paddedHex 32 n).length = 0 := by
    rw [← String.toList_ofList (l := Text.paddedHex 32 n)]
    show (Contexts.identifier n).toList.length = 0
    rw [h]
    rfl
  unfold Text.paddedHex at hlen
  rw [List.length_append, List.length_replicate] at hlen
  omega

/-! ### When the sessions are left as they were -/

/-- **A validation leaves the current context as it was if and only if a tracer is in use or there is
a context**, whether the flow passes or not. Then events are tagged and sessions are entered behind
it as they would have been before. A log where there is no context makes one, which has a new
identifier, no flow and no metadata: it stays current, tags later events, and all sessions that are
entered later have its identifier. -/
theorem validate_keeps_iff [Limits] (s : State) (f : Flow) :
    (((s.validate f).2.ambient.current = s.ambient.current ∧
        (s.validate f).2.currentContext? = s.currentContext? ∧
        (s.validate f).2.sessionId? = s.sessionId?) ↔ ¬ s.Unattended) ∧
    (¬ s.Unattended → (s.validate f).2.sessions = s.sessions ∧
      (s.validate f).2.tagged = s.tagged ∧ (s.validate f).2.visits = s.visits) ∧
    (s.Unattended → ∃ id, id = Contexts.identifier (s.shared.contexts.issued + 1) ∧
      (s.validate f).2.currentContext? = some ⟨id, none, []⟩ ∧
      (∀ event, s.tagged event = event ∧
        (s.validate f).2.tagged event = event.insertNew "flow_session_id" (.text id)) ∧
      ∀ names, (s.validate f).2.visits names = names.map fun _ => some id) := by
  refine ⟨⟨?_, fun h => ?_⟩, fun h => ?_, fun h => ?_⟩
  · rintro ⟨-, hcontext, -⟩ h
    rw [currentContext?_validate h] at hcontext
    unfold currentContext? at hcontext
    rw [h.2] at hcontext
    cases hcontext
  · have hsame := sessions_validate_of_attended h f
    exact ⟨congrArg Ambient.current (ambient_congr hsame), currentContext?_congr hsame,
      sessionId?_congr hsame⟩
  · have hsame := sessions_validate_of_attended h f
    exact ⟨hsame, tagged_congr hsame, funext fun names => visits_congr hsame names⟩
  · have hcontext := currentContext?_validate h f
    have hnone : s.currentContext? = none := by
      unfold currentContext?
      rw [h.2]
      rfl
    refine ⟨_, rfl, hcontext, fun event => ⟨?_, ?_⟩, fun names => ?_⟩
    · unfold tagged
      rw [hnone]
    · unfold tagged
      rw [hcontext]
    · exact visits_of_current hcontext (identifier_ne_empty _) rfl names

/-- A log in use, and nothing else yet. -/
def logging : State where
  shared := { tracing := Tracing.use {} ⟨0, .log⟩ }

/-- A flow of one step. -/
def single : Flow := .ofSteps (some "f") (some "g") [{ goal := some "a" }]

section Frames
attribute [local instance] Limits.thousandFrames

/-- Outside any session an event has no tag and two sessions have two identifiers; behind a validation
the event has one and the sessions share theirs. -/
theorem not_kept_log : logging.sessionId? = none ∧
    (logging.validate single).2.sessionId? = some (Contexts.identifier 1) ∧
    logging.tagged [("event", .text "x")] = [("event", .text "x")] ∧
    (logging.validate single).2.tagged [("event", .text "x")] =
      [("event", .text "x"), ("flow_session_id", .text (Contexts.identifier 1))] ∧
    logging.visits ["p", "q"] = [some (Contexts.identifier 1), some (Contexts.identifier 2)] ∧
    Contexts.identifier 1 ≠ Contexts.identifier 2 ∧
    (logging.validate single).2.visits ["p", "q"] =
      [some (Contexts.identifier 1), some (Contexts.identifier 1)] := by
  have hcontext : (logging.validate single).2.currentContext? =
      some { sessionId := Contexts.identifier 1 } := currentContext?_validate ⟨rfl, rfl⟩ single
  refine ⟨rfl, ?_, rfl, ?_, rfl, by decide, visits_of_current hcontext (identifier_ne_empty 1) rfl _⟩
  · unfold sessionId?
    rw [hcontext]
    rfl
  · unfold tagged
    rw [hcontext]
    rfl

end Frames

end Stepwise.State
