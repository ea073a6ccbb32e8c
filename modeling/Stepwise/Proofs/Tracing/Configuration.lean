import Mathlib.Data.List.Basic
import Stepwise.Proofs.Value.Display
import Stepwise.Tracing.Record

/-!
# The backend in use

Requests on the configuration choose a backend, look up the one in use, or forget it. What a request
has changed until it is refused stays, so it has to be shown that this is nothing.

* `names_or_refused`: a choice either names a backend (`Names`) or is refused (`Refused`);
  `configure_of_names` and `configure_of_refused` tell what configuring does with it, and
  `Refused.valueError` and `Refused.recursionError` of which type the refusal of an unknown value is.
* `Settled`: where a backend is said to be configured there is one. One call keeps this
  (`Settled.after`), and so does a run (`settled_run`), so that looking up is never refused
  (`Settled.lookUp`).
* `after_of_quiet`: a call that looks up, or is refused, leaves what is in use (`inUse_run`).
* `backend_steady`: so between two changes of the configuration all look-ups give one backend.
* `unknown_too_deep`: a value that goes too deep to be shown is refused by another type of exception
  than one that is shown.
-/

namespace Stepwise.Tracing

/-! ### Choices -/

/-- **The backend that a choice names**, where there is a library of tracers or none, and so many
backends have been made. -/
inductive Names (hasTracers : Bool) (made : ℕ) : Choice → Backend → Prop
  | given (b : Backend) : Names hasTracers made (.backend b) b
  | log {v : Value} (h : v.string? = some "logging") :
      Names hasTracers made (.value v) ⟨made, .log⟩
  | tracer {v : Value} (h : v.string? = some "otel") (there : hasTracers = true) :
      Names hasTracers made (.value v) ⟨made, .tracer defaultTracer⟩
  | fitting {v : Value} (h : v.string? = some "auto") :
      Names hasTracers made (.value v) ⟨made, if hasTracers then .tracer defaultTracer else .log⟩

/-- A value that is none of the names of backends. -/
def Unnamed (v : Value) : Prop := ∀ w ∈ ["logging", "otel", "auto"], v.string? ≠ some w

section Choices
variable [Limits]

/-- **A choice that is refused**: it asks for a tracer where there is none, or it is unknown. An
unknown value is told as it is if it can be shown, or else what keeps it from being shown. -/
inductive Refused (hasTracers : Bool) : Choice → Error → Prop
  | noTracers {v : Value} (h : v.string? = some "otel") (absent : hasTracers = false) :
      Refused hasTracers (.value v) .noTracers
  | unknown {v : Value} (h : Unnamed v) (shown : v.Showable Limits.showing) :
      Refused hasTracers (.value v) (.unknown v)
  | unshowable {v : Value} {hindrance : Value.Hindrance} (h : Unnamed v)
      (hindered : v.Hindered Limits.showing hindrance) :
      Refused hasTracers (.value v) (.unshowable hindrance)

theorem refused_of_unnamed {v : Value} (h : Unnamed v) {hasTracers : Bool} {e : Error} :
    Refused hasTracers (.value v) e ↔ e = refusal v := by
  unfold refusal
  constructor
  · intro he
    cases he with
    | noTracers h' => exact absurd h' (h "otel" (by simp))
    | unknown _ shown => rw [Value.hindrance?_eq_none_iff.mpr shown]
    | unshowable _ hindered => rw [Value.hindrance?_eq_some_iff.mpr hindered]
  · rintro rfl
    cases hv : v.hindrance? Limits.showing with
    | none => exact .unknown h (Value.hindrance?_eq_none_iff.mp hv)
    | some hindrance => exact .unshowable h (Value.hindrance?_eq_some_iff.mp hv)

theorem names_or_refused (hasTracers : Bool) (made : ℕ) (c : Choice) :
    (∃ b, Names hasTracers made c b) ∨ ∃ e, Refused hasTracers c e := by
  cases c with
  | backend b => exact Or.inl ⟨b, .given b⟩
  | value v =>
    by_cases hlog : v.string? = some "logging"
    · exact Or.inl ⟨_, .log hlog⟩
    by_cases htracer : v.string? = some "otel"
    · cases hthere : hasTracers with
      | true => exact Or.inl ⟨_, .tracer htracer rfl⟩
      | false => exact Or.inr ⟨_, .noTracers htracer rfl⟩
    by_cases hfitting : v.string? = some "auto"
    · exact Or.inl ⟨_, .fitting hfitting⟩
    · have hunnamed : Unnamed v := by simp [Unnamed, hlog, htracer, hfitting]
      exact Or.inr ⟨_, (refused_of_unnamed hunnamed).mpr rfl⟩

section Unnamed
variable {hasTracers : Bool} {v : Value} {e : Error} (he : Refused hasTracers (.value v) e)
  (h : Unnamed v)
include he h

/-- An unknown value that does not go too deep is refused by a `ValueError`. -/
theorem Refused.valueError (hflat : ¬v.Nests Limits.showing) : e.typeName = "ValueError" := by
  cases he with
  | noTracers h' => exact absurd h' (h "otel" (by simp))
  | unknown => rfl
  | @unshowable _ hindrance _ hindered =>
    cases hindrance with
    | longNumber => rfl
    | tooDeep => exact absurd hindered.nests hflat

/-- One that goes too deep, and holds no number that is too long, is refused by a
`RecursionError`. -/
theorem Refused.recursionError (hdeep : v.Nests Limits.showing) (hshort : ¬v.HasLong) :
    e.typeName = "RecursionError" := by
  cases he with
  | noTracers h' => exact absurd h' (h "otel" (by simp))
  | unknown _ shown => exact absurd hdeep shown.1
  | @unshowable _ hindrance _ hindered =>
    cases hindrance with
    | longNumber => exact absurd hindered.hasLong hshort
    | tooDeep => rfl

end Unnamed

end Choices

/-! ### What requests do -/

section Outcome
variable {α β : Type} {t : Tracing}

theorem outcome_bind_of_ok {q : Request α} {k : α → Request β} {a : α} {t' : Tracing}
    (h : q.outcome t = (.ok a, t')) : (q >>= k).outcome t = (k a).outcome t' := by
  have hbind : (q >>= k).outcome t =
      ExceptT.bindCont k (q.outcome t).1 (q.outcome t).2 := rfl
  rw [hbind, h]
  rfl

theorem outcome_bind_of_error {q : Request α} {k : α → Request β} {e : Error} {t' : Tracing}
    (h : q.outcome t = (.error e, t')) : (q >>= k).outcome t = (.error e, t') := by
  have hbind : (q >>= k).outcome t =
      ExceptT.bindCont k (q.outcome t).1 (q.outcome t).2 := rfl
  rw [hbind, h]
  rfl

theorem making_tracer (t : Tracing) (name : String) : (making (.tracer name)).outcome t =
    if t.hasTracers then (.ok ⟨t.made, .tracer name⟩, { t with made := t.made + 1 })
    else (.error .noTracers, t) := by
  have hget : (get : Request Tracing).outcome t = (.ok t, t) := rfl
  rw [making, outcome_bind_of_ok hget, make]
  cases t.hasTracers <;> rfl

variable [Limits] {c : Choice}

theorem choose_of_names {b : Backend} (h : Names t.hasTracers t.made c b) :
    ∃ made, (choose c).outcome t = (.ok b, { t with made }) := by
  cases h with
  | given => exact ⟨t.made, rfl⟩
  | log h =>
    refine ⟨t.made + 1, ?_⟩
    rw [choose, h]
    rfl
  | tracer h there =>
    refine ⟨t.made + 1, ?_⟩
    rw [choose, h]
    show (making _).outcome t = _
    rw [making_tracer, if_pos there]
  | fitting h =>
    refine ⟨t.made + 1, ?_⟩
    rw [choose, h]
    rfl

theorem choose_of_unnamed {v : Value} (h : Unnamed v) :
    (choose (.value v)).outcome t = (.error (refusal v), t) := by
  simp only [Unnamed, List.forall_mem_cons] at h
  obtain ⟨hlog, htracer, hfitting, -⟩ := h
  rw [choose]
  split
  · next h => exact absurd h hlog
  · next h => exact absurd h htracer
  · next h => exact absurd h hfitting
  · rfl

theorem choose_of_refused {e : Error} (h : Refused t.hasTracers c e) :
    (choose c).outcome t = (.error e, t) := by
  cases c with
  | backend b => cases h
  | value v =>
    by_cases hv : Unnamed v
    · rw [choose_of_unnamed hv, (refused_of_unnamed hv).mp h]
    · cases h with
      | noTracers h absent =>
        rw [choose, h]
        show (making _).outcome t = _
        rw [making_tracer, if_neg (by simp [absent])]
      | unknown h | unshowable h => exact absurd h hv

/-- The backend that is named is put in use. -/
theorem configure_of_names {b : Backend} (h : Names t.hasTracers t.made c b) :
    ∃ made, (configure c).outcome t =
      (.ok (), { t with backend := some b, configured := true, made }) := by
  obtain ⟨made, hchoose⟩ := choose_of_names h
  exact ⟨made, outcome_bind_of_ok hchoose⟩

/-- A choice is refused before anything is changed. -/
theorem configure_of_refused {e : Error} (h : Refused t.hasTracers c e) :
    (configure c).outcome t = (.error e, t) :=
  outcome_bind_of_error (choose_of_refused h)

end Outcome

/-! ### Runs -/

/-- A call on the configuration. -/
inductive Call where
  | configure (c : Choice)
  | lookUp
  | reset

section Calls
variable [Limits]

/-- The request that a call makes; what it gives is the backend that was looked up, if any. -/
def Call.request : Call → Request (Option Backend)
  | .configure c => do
    Tracing.configure c
    pure none
  | .lookUp => do
    let b ← Tracing.lookUp
    pure (some b)
  | .reset => do
    modify Tracing.reset
    pure none

/-- The answer to a call. -/
def answer (t : Tracing) (call : Call) : Except Error (Option Backend) :=
  (call.request.outcome t).1

/-- The configuration after a call. -/
def after (t : Tracing) (call : Call) : Tracing := (call.request.outcome t).2

/-- A new configuration after some calls, where there is a library of tracers or none. -/
def run (hasTracers : Bool) (calls : List Call) : Tracing := calls.foldl after { hasTracers }

/-- **A call that changes nothing in the configuration**: it looks up, or is refused. -/
def Quiet (hasTracers : Bool) : Call → Prop
  | .configure c => ∃ e, Refused hasTracers c e
  | .lookUp => True
  | .reset => False

end Calls

/-- **Where a backend is said to be configured there is one.** -/
structure Settled (hasTracers : Bool) (t : Tracing) : Prop where
  backend : t.configured = true → ∃ b, t.backend = some b
  hasTracers : t.hasTracers = hasTracers

/-- **A backend is in use.** -/
structure InUse (b : Backend) (t : Tracing) : Prop where
  configured : t.configured = true
  backend : t.backend = some b

/-! ### The backend in use -/

section Current
variable {hasTracers : Bool} {t : Tracing} {b : Backend}

theorem InUse.current (h : t.InUse b) : t.current = (b, t) := by
  unfold Tracing.current
  rw [h.configured, h.backend]

/-- Whatever backend is given is in use from then on. -/
theorem inUse_current (t : Tracing) : t.current.2.InUse t.current.1 := by
  unfold Tracing.current
  split
  · next b hconfigured hbackend => exact ⟨hconfigured, hbackend⟩
  · exact ⟨rfl, rfl⟩

theorem hasTracers_current (t : Tracing) : t.current.2.hasTracers = t.hasTracers := by
  unfold Tracing.current
  split <;> rfl

theorem InUse.settled (h : t.InUse b) : t.Settled t.hasTracers := ⟨fun _ => ⟨b, h.backend⟩, rfl⟩

/-- Where a backend is said to be configured only if there is one, looking up is not refused. -/
theorem Settled.outcome_lookUp (h : t.Settled hasTracers) :
    lookUp.outcome t = (.ok t.current.1, t.current.2) := by
  have hget : (get : Request Tracing).outcome t = (.ok t, t) := rfl
  unfold Tracing.current
  rw [lookUp, outcome_bind_of_ok hget]
  cases hconfigured : t.configured with
  | true =>
    obtain ⟨b, hb⟩ := h.backend hconfigured
    rw [hb]
    rfl
  | false => rfl

end Current

/-! ### What calls do -/

section Steps
variable [Limits] {hasTracers : Bool} {t : Tracing} {b : Backend} {c : Choice}

theorem inUse_configure (h : Names t.hasTracers t.made c b) :
    t.answer (.configure c) = .ok none ∧ (t.after (.configure c)).InUse b ∧
      (t.after (.configure c)).hasTracers = t.hasTracers := by
  obtain ⟨made, hconfigure⟩ := configure_of_names h
  unfold answer Tracing.after
  rw [Call.request, outcome_bind_of_ok hconfigure]
  exact ⟨rfl, ⟨rfl, rfl⟩, rfl⟩

theorem outcome_of_refused {e : Error} (h : Refused t.hasTracers c e) :
    (Call.configure c).request.outcome t = (.error e, t) :=
  outcome_bind_of_error (configure_of_refused h)

theorem Settled.request_lookUp (h : t.Settled hasTracers) :
    Call.lookUp.request.outcome t = (.ok (some t.current.1), t.current.2) := by
  rw [Call.request, outcome_bind_of_ok h.outcome_lookUp]
  rfl

/-- One call keeps it. -/
theorem Settled.after (h : t.Settled hasTracers) (call : Call) :
    (t.after call).Settled hasTracers := by
  cases call with
  | reset => exact ⟨nofun, h.hasTracers⟩
  | lookUp =>
    rw [Tracing.after, h.request_lookUp, ← h.hasTracers, ← hasTracers_current t]
    exact (inUse_current t).settled
  | configure c =>
    rcases names_or_refused t.hasTracers t.made c with ⟨b, hb⟩ | ⟨e, he⟩
    · obtain ⟨-, hin, hsame⟩ := inUse_configure hb
      exact (hsame.trans h.hasTracers) ▸ hin.settled
    · rw [Tracing.after, outcome_of_refused he]
      exact h

/-- A run keeps it. -/
theorem settled_run (hasTracers : Bool) (calls : List Call) :
    (run hasTracers calls).Settled hasTracers :=
  List.foldlRecOn calls Tracing.after ⟨nofun, rfl⟩ fun _ h call _ => h.after call

/-- A quiet call leaves a configuration with a backend in use as it is. -/
theorem after_of_quiet (h : t.InUse b) {call : Call} (hquiet : Quiet t.hasTracers call) :
    t.after call = t := by
  cases call with
  | configure c =>
    obtain ⟨e, he⟩ := hquiet
    rw [Tracing.after, outcome_of_refused he]
  | lookUp =>
    rw [Tracing.after, h.settled.request_lookUp, h.current]
  | reset => exact hquiet.elim

/-- So do quiet calls one after the other. -/
theorem foldl_of_quiet (h : t.InUse b) {calls : List Call}
    (hquiet : ∀ call ∈ calls, Quiet t.hasTracers call) : calls.foldl Tracing.after t = t := by
  induction calls with
  | nil => rfl
  | cons call calls ih =>
    obtain ⟨hcall, hcalls⟩ := List.forall_mem_cons.mp hquiet
    rw [List.foldl_cons, after_of_quiet h hcall, ih hcalls]

/-- A backend in use is looked up, also behind quiet calls. -/
theorem InUse.answer_lookUp (h : t.InUse b) {quiet : List Call}
    (hquiet : ∀ call ∈ quiet, Quiet t.hasTracers call) :
    (quiet.foldl Tracing.after t).answer .lookUp = .ok (some b) := by
  rw [foldl_of_quiet h hquiet, answer, h.settled.request_lookUp, h.current]

theorem answer_configure_iff {e : Error} :
    t.answer (.configure c) = .error e ↔ Refused t.hasTracers c e := by
  constructor
  · intro he
    rcases names_or_refused t.hasTracers t.made c with ⟨b, hb⟩ | ⟨e', he'⟩
    · rw [(inUse_configure hb).1] at he
      cases he
    · rw [answer, outcome_of_refused he'] at he
      cases he
      exact he'
  · intro he
    rw [answer, outcome_of_refused he]

end Steps

section Steady
variable [Limits]

theorem run_append (hasTracers : Bool) (calls : List Call) (call : Call) (more : List Call) :
    run hasTracers (calls ++ call :: more) =
      more.foldl after ((run hasTracers calls).after call) := by
  unfold run
  rw [List.foldl_append, List.foldl_cons]

/-- **Between two changes of the configuration one backend is in use**, with a library of tracers or
without. Where a backend is said to be configured there is one, so looking up always gives a backend,
and behind calls that look up or are refused it gives the same one. Configuring is refused exactly
for a choice that is unknown, or that asks for a tracer where there is none, and then leaves the
configuration as it was: the exception is a `RuntimeError` for the tracer and a `ValueError` for an
unknown value. Only one that goes too deep to be shown is refused by a `RecursionError`, unless a
number that is too long comes first in it. Otherwise the backend that the choice names is looked up
from then on. -/
theorem backend_steady (hasTracers : Bool) (calls : List Call) :
    ((run hasTracers calls).configured = true → ∃ b, (run hasTracers calls).backend = some b) ∧
    (∀ c e, (run hasTracers calls).answer (.configure c) = .error e ↔ Refused hasTracers c e) ∧
    (hasTracers = false → ∀ v : Value, v.string? = some "otel" →
      ∃ e, (run hasTracers calls).answer (.configure (.value v)) = .error e ∧
        e.typeName = "RuntimeError") ∧
    (∀ v, Unnamed v → ¬v.Nests Limits.showing →
      ∃ e, (run hasTracers calls).answer (.configure (.value v)) = .error e ∧
        e.typeName = "ValueError") ∧
    (∀ v, Unnamed v → v.Nests Limits.showing → ¬v.HasLong →
      ∃ e, (run hasTracers calls).answer (.configure (.value v)) = .error e ∧
        e.typeName = "RecursionError") ∧
    (∀ c e, (run hasTracers calls).answer (.configure c) = .error e →
      run hasTracers (calls ++ [.configure c]) = run hasTracers calls) ∧
    (∃ b, (run hasTracers calls).answer .lookUp = .ok (some b) ∧
      ∀ quiet, (∀ call ∈ quiet, Quiet hasTracers call) →
        (run hasTracers (calls ++ .lookUp :: quiet)).answer .lookUp = .ok (some b)) ∧
    ∀ c b, Names hasTracers (run hasTracers calls).made c b →
      (run hasTracers calls).answer (.configure c) = .ok none ∧
      ∀ quiet, (∀ call ∈ quiet, Quiet hasTracers call) →
        (run hasTracers (calls ++ .configure c :: quiet)).answer .lookUp = .ok (some b) := by
  have h := settled_run hasTracers calls
  generalize ht : run hasTracers calls = t at h ⊢
  have hsame := h.hasTracers
  subst hsame
  have hunknown {v : Value} (hv : Unnamed v) : Refused t.hasTracers (.value v) (refusal v) :=
    (refused_of_unnamed hv).mpr rfl
  refine ⟨h.backend, fun c e => answer_configure_iff, fun habsent v hv => ?_,
    fun v hv hflat => ⟨_, answer_configure_iff.mpr (hunknown hv), (hunknown hv).valueError hv hflat⟩,
    fun v hv hdeep hshort => ⟨_, answer_configure_iff.mpr (hunknown hv),
      (hunknown hv).recursionError hv hdeep hshort⟩, fun c e he => ?_, ?_, fun c b hb => ?_⟩
  · exact ⟨.noTracers, answer_configure_iff.mpr (.noTracers hv habsent), rfl⟩
  · rw [run_append, ht, List.foldl_nil, after, outcome_of_refused (answer_configure_iff.mp he)]
  · refine ⟨t.current.1, by rw [answer, h.request_lookUp], fun quiet hquiet => ?_⟩
    rw [run_append, ht, after, h.request_lookUp]
    exact (inUse_current t).answer_lookUp ((hasTracers_current t).symm ▸ hquiet)
  · obtain ⟨hanswer, hin, hsame⟩ := inUse_configure hb
    refine ⟨hanswer, fun quiet hquiet => ?_⟩
    rw [run_append, ht]
    exact hin.answer_lookUp (hsame.symm ▸ hquiet)

end Steady

section TooDeep

attribute [local instance] Limits.thousandFrames

/-- An unknown value that goes too deep to be shown is not refused by a `ValueError`: it is lists two
thousand deep in each other, on a stack with a thousand frames. -/
theorem unknown_too_deep : Unnamed (.nested 2000) ∧
    ∃ e, (run true []).answer (.configure (.value (.nested 2000))) = .error e ∧
      e.typeName = "RecursionError" ∧ e.typeName ≠ "ValueError" := by
  have hunnamed : Unnamed (.nested 2000) := fun _ _ h => nomatch h
  have hdeep : (Value.nested 2000).Nests Limits.showing := (Value.nests_nested 2000).mono (by decide)
  have hrefused : Refused true (.value (.nested 2000)) (refusal (.nested 2000)) :=
    (refused_of_unnamed hunnamed).mpr rfl
  have htype : (refusal (.nested 2000)).typeName = "RecursionError" :=
    hrefused.recursionError hunnamed hdeep (Value.not_hasLong_nested 2000)
  refine ⟨hunnamed, _, answer_configure_iff.mpr hrefused, htype, ?_⟩
  rw [htype]
  decide

end TooDeep

end Stepwise.Tracing
