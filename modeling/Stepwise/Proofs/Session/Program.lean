import Mathlib.Data.List.Basic
import Stepwise.Session.State

/-!
# Programs that run in sessions

A program puts values under keys and looks them up, runs blocks in sessions of their own, raises
exceptions and catches them. How it runs is told for any reading of its statements, that is for any
kind of state with operations that put, look, enter and leave.

* `Program.run`: what happens while a program runs, its `Course`.
* `contexts`: the reading by the contexts there are and the one that is current.
* `Spares`: a run changes of the contexts that were there at most the one that was current
  (`spares_setValue`), and a block changes none (`Restored`).
-/

namespace Stepwise.Session

/-- A program. -/
inductive Program where
  | done
  /-- an exception is raised -/
  | fail
  | put (key : String) (v : Value) (rest : Program)
  | look (key : String) (rest : Program)
  /-- the body runs in a session of its own -/
  | block (flowName sessionId : Option String) (body rest : Program)
  /-- an exception that the body raises is caught, and the handler runs -/
  | attempt (body handler rest : Program)

/-- What a program sees where it looks a key up. -/
structure Sight where
  sessionId : Option String
  value : Option Value

/-- What happens while a program runs. -/
structure Course (σ : Type) where
  /-- whether it ends by an exception -/
  raised : Bool := false
  /-- what is seen, in order -/
  sights : List Sight := []
  /-- for each block that is left, the state in which it was entered and the state behind it -/
  left : List (σ × σ) := []
  /-- the state at the end -/
  state : σ

namespace Course
variable {σ : Type}

/-- What happens, and then something else. -/
def followedBy (c d : Course σ) : Course σ :=
  ⟨d.raised, c.sights ++ d.sights, c.left ++ d.left, d.state⟩

/-- Goes on unless an exception has been raised. -/
def next (c : Course σ) (k : σ → Course σ) : Course σ :=
  if c.raised then c else c.followedBy (k c.state)

/-- Catches an exception and goes on with a handler. -/
def rescue (c : Course σ) (k : σ → Course σ) : Course σ :=
  if c.raised then c.followedBy (k c.state) else c

/-- Leaves a block that was entered in a state, with or without an exception. -/
def leaving (c : Course σ) (entered : σ) (leave : σ → σ) : Course σ :=
  { c with left := c.left ++ [(entered, leave c.state)], state := leave c.state }

end Course

/-- **A reading of programs.** Entering a block may be refused, and what it gives beside the state is
given back on leaving. -/
structure Reading (σ τ : Type) where
  put : σ → String → Value → σ
  sight : σ → String → Sight
  enter : σ → Option String → Option String → Option (τ × σ)
  leave : σ → τ → σ

/-- **How a program runs.** To be refused a block is an exception. -/
def Program.run {σ τ : Type} (R : Reading σ τ) : Program → σ → Course σ
  | done, s => { state := s }
  | fail, s => { raised := true, state := s }
  | put key v rest, s => run R rest (R.put s key v)
  | look key rest, s => Course.next { sights := [R.sight s key], state := s } (run R rest)
  | block flowName sessionId body rest, s =>
    match R.enter s flowName sessionId with
    | none => { raised := true, state := s }
    | some (token, t) => ((run R body t).leaving s (R.leave · token)).next (run R rest)
  | attempt body handler rest, s => ((run R body s).rescue (run R handler)).next (run R rest)

/-- The reading by the contexts there are and the current one. -/
def contexts [Limits] : Reading State (Option ContextId) where
  put s key v := s.setValue key v
  sight s key := ⟨s.sessionId?, s.value? key⟩
  enter s flowName sessionId := (s.enter flowName sessionId).toOption
  leave s before := s.leave before

end Stepwise.Session

namespace Stepwise.State

/-! ### A context that is added and made current -/

/-- The state with one context more, which is current, and a number of identifiers made. -/
def opened (s : State) (c : Context) (issued : ℕ) : State :=
  (s.withContexts ⟨s.shared.contexts.all ++ [c], issued⟩).setCurrent
    (some s.shared.contexts.all.length)

/-- The identifier that is made next. -/
def freshId (s : State) : String := Contexts.identifier (s.shared.contexts.issued + 1)

section Opened
variable (s : State) (c : Context) (issued : ℕ)

theorem currentContext?_opened : (s.opened c issued).currentContext? = some c := by
  have hget : (s.shared.contexts.all ++ [c])[s.shared.contexts.all.length]? = some c :=
    List.getElem?_concat_length
  exact hget

theorem context?_opened {i : ContextId} {d : Context} (h : s.context? i = some d) :
    (s.opened c issued).context? i = some d := by
  have hget : s.shared.contexts.all[i]? = some d := h
  have hlt : i < s.shared.contexts.all.length := (List.getElem?_eq_some_iff.mp hget).1
  have happend : (s.shared.contexts.all ++ [c])[i]? = some d := by
    rw [List.getElem?_append_left hlt]
    exact hget
  exact happend

theorem context?_length : s.context? s.shared.contexts.all.length = none :=
  List.getElem?_eq_none_iff.mpr (Nat.le_refl _)

end Opened

/-! ### What entering and putting give -/

section Enter
variable [Limits] (s : State) (flowName : Option String)

/-- A session with a given identifier has no metadata yet; an empty identifier is replaced. -/
theorem enter_given (id : String) : s.enter flowName (some id) =
    .ok (s.ambient.current, s.opened ⟨if id = "" then s.freshId else id, flowName, []⟩
      (if id = "" then s.shared.contexts.issued + 1 else s.shared.contexts.issued)) := by
  have hfor : s.contextFor flowName (some id) =
      .ok (s.shared.contexts.create (some id) flowName []) := by
    unfold contextFor
    split
    · next h => cases h
    · rfl
  unfold enter
  rw [hfor]
  by_cases hid : id = ""
  · subst hid
    rfl
  · have hproper : (some id).filter (fun i => decide (i ≠ "")) = some id := by
      simp [Option.filter, hid]
    unfold Contexts.create
    rw [hproper, if_neg hid, if_neg hid]
    rfl

/-- Outside any session a new one is made. -/
theorem enter_outside (h : s.currentContext? = none) : s.enter flowName none =
    .ok (s.ambient.current, s.opened ⟨s.freshId, flowName, []⟩
      (s.shared.contexts.issued + 1)) := by
  have hfor : s.contextFor flowName none =
      .ok (s.shared.contexts.create none flowName []) := by
    unfold contextFor
    rw [h]
  unfold enter
  rw [hfor]
  rfl

/-- Inside a session its identifier is taken over and its metadata are copied. -/
theorem enter_inside {c : Context} (h : s.currentContext? = some c) (hid : c.sessionId ≠ "")
    (hcopied : c.copied = .ok c.metadata) : s.enter flowName none =
      .ok (s.ambient.current, s.opened ⟨c.sessionId, Contexts.forkName c flowName, c.metadata⟩
        s.shared.contexts.issued) := by
  have hproper : (some c.sessionId).filter (fun i => decide (i ≠ "")) = some c.sessionId := by
    simp [Option.filter, hid]
  have hfor : s.contextFor flowName none = .ok (s.shared.contexts.create (some c.sessionId)
      (Contexts.forkName c flowName) c.metadata) := by
    unfold contextFor
    rw [h]
    show s.shared.contexts.fork c flowName = _
    unfold Contexts.fork
    rw [hcopied]
    rfl
  unfold enter
  rw [hfor]
  unfold Contexts.create
  rw [hproper]
  rfl

/-- Metadata that cannot be copied are a reason to refuse a session. -/
theorem enter_refused {c : Context} {e : Context.Fault} (h : s.currentContext? = some c)
    (hcopied : c.copied = .error e) : s.enter flowName none = .error e := by
  have hfor : s.contextFor flowName none = .error e := by
    unfold contextFor
    rw [h]
    show s.shared.contexts.fork c flowName = _
    unfold Contexts.fork
    rw [hcopied]
    rfl
  unfold enter
  rw [hfor]
  rfl

end Enter

section Put
variable (s : State)

/-- Where there is no context, putting a value makes one first. -/
theorem setValue_outside (h : s.ambient.current = none) (key : String) (v : Value) :
    s.setValue key v = (s.opened ⟨s.freshId, none, []⟩
      (s.shared.contexts.issued + 1)).setValue key v := by
  unfold setValue ensureContext
  rw [h]
  rfl

theorem setValue_inside {i : ContextId} (h : s.ambient.current = some i) (key : String)
    (v : Value) : s.setValue key v =
      s.withContexts (s.shared.contexts.modify i (·.set key v)) := by
  unfold setValue ensureContext
  rw [h]

/-- What is put goes into the current context. -/
theorem currentContext?_setValue {s : State} {i : ContextId} {c : Context}
    (h : s.ambient.current = some i) (hc : s.currentContext? = some c) (key : String) (v : Value) :
    (s.setValue key v).currentContext? = some (c.set key v) := by
  have hget : s.shared.contexts.all[i]? = some c := by
    unfold currentContext? at hc
    rw [h] at hc
    exact hc
  have hmodify : (s.shared.contexts.all.modify i (·.set key v))[i]? = some (c.set key v) := by
    simp [hget]
  rw [setValue_inside s h]
  show s.ambient.current.bind _ = _
  rw [h]
  exact hmodify

end Put

/-! ### What is spared -/

/-- **A state spares another one**: of the contexts that there are, at most the current one is
changed; and it stays current, or if there is none, one that is new may become it. -/
structure Spares (s t : State) : Prop where
  current : s.ambient.current ≠ none → t.ambient.current = s.ambient.current
  fresh : s.ambient.current = none → ∀ i, t.ambient.current = some i → s.context? i = none
  others : ∀ i c, s.context? i = some c → s.ambient.current ≠ some i → t.context? i = some c

/-- **A state is restored**: the same context is current, and it is as it was, as are all others
that there were. -/
structure Restored (s t : State) : Prop where
  current : t.ambient.current = s.ambient.current
  context : t.currentContext? = s.currentContext?
  others : ∀ i c, s.context? i = some c → t.context? i = some c

section Spares
variable {s t u : State}

theorem Spares.refl (s : State) : s.Spares s where
  current _ := rfl
  fresh h i hi := by rw [h] at hi; cases hi
  others _ _ hc _ := hc

theorem Spares.trans (hst : s.Spares t) (htu : t.Spares u) : s.Spares u where
  current hs := by
    have ht := hst.current hs
    rw [htu.current (by rw [ht]; exact hs), ht]
  fresh hs i hi := by
    cases ht : t.ambient.current with
    | some j =>
      have hu := htu.current (by simp [ht])
      exact hst.fresh hs i (by rw [← hu]; exact hi)
    | none =>
      have hnew := htu.fresh ht i hi
      by_contra hsome
      obtain ⟨c, hc⟩ := Option.ne_none_iff_exists'.mp hsome
      rw [hst.others i c hc (by simp [hs])] at hnew
      cases hnew
  others i c hc hi := by
    refine htu.others i c (hst.others i c hc hi) fun hti => ?_
    cases hs : s.ambient.current with
    | some j =>
      rw [hst.current (by simp [hs])] at hti
      exact hi hti
    | none =>
      rw [hst.fresh hs i hti] at hc
      cases hc

theorem Restored.spares (h : s.Restored t) : s.Spares t where
  current _ := h.current
  fresh hs i hi := by
    rw [h.current, hs] at hi
    cases hi
  others i c hc _ := h.others i c hc

theorem Restored.sessionId? (h : s.Restored t) : s.sessionId? = t.sessionId? := by
  unfold State.sessionId?
  rw [h.context]

theorem Restored.value? (h : s.Restored t) (key : String) : s.value? key = t.value? key := by
  unfold State.value?
  rw [h.context]

theorem context?_setValue_inside {i j : ContextId} {c : Context}
    (h : s.ambient.current = some i) (key : String) (v : Value) (hj : s.context? j = some c)
    (hne : i ≠ j) : (s.setValue key v).context? j = some c := by
  have hget : s.shared.contexts.all[j]? = some c := hj
  have hmodify : (s.shared.contexts.all.modify i (·.set key v))[j]? = some c := by
    simp [hne, hget]
  rw [setValue_inside s h]
  exact hmodify

theorem spares_opened (c : Context) (issued : ℕ) (h : s.ambient.current = none) :
    s.Spares (s.opened c issued) where
  current hs := absurd h hs
  fresh _ i hi := by
    have heq : s.shared.contexts.all.length = i := Option.some.inj hi
    rw [← heq]
    exact context?_length s
  others _ _ hd _ := context?_opened s c issued hd

theorem spares_setValue (s : State) (key : String) (v : Value) : s.Spares (s.setValue key v) := by
  have hinside : ∀ s : State, ∀ i, s.ambient.current = some i → s.Spares (s.setValue key v) := by
    intro s i hi
    have hcurrent : (s.setValue key v).ambient.current = s.ambient.current := by
      rw [setValue_inside s hi]
      rfl
    refine ⟨fun _ => hcurrent, fun hnone => ?_, fun j c hj hne => ?_⟩
    · rw [hi] at hnone
      cases hnone
    · refine context?_setValue_inside hi key v hj fun hij => hne ?_
      rw [hi, hij]
  cases hs : s.ambient.current with
  | some i => exact hinside s i hs
  | none =>
    rw [setValue_outside s hs]
    exact (spares_opened _ _ hs).trans (hinside _ _ rfl)

/-- **A block restores the state.** What it enters is a context of its own, so a body that spares
the state that was entered leaves all contexts that there were before. -/
theorem restored_leave {c : Context} {issued : ℕ}
    (hs : ∀ i, s.ambient.current = some i → ∃ d, s.context? i = some d)
    (h : (s.opened c issued).Spares t) : s.Restored (t.leave s.ambient.current) := by
  have hothers : ∀ i d, s.context? i = some d → t.context? i = some d := by
    intro i d hd
    refine h.others i d (context?_opened s c issued hd) fun hi => ?_
    have heq : s.shared.contexts.all.length = i := Option.some.inj hi
    rw [← heq, context?_length] at hd
    cases hd
  refine ⟨rfl, ?_, hothers⟩
  show s.ambient.current.bind t.context? = s.ambient.current.bind s.context?
  cases hcurrent : s.ambient.current with
  | none => rfl
  | some i =>
    obtain ⟨d, hd⟩ := hs i hcurrent
    rw [Option.bind_some, Option.bind_some, hd, hothers i d hd]

end Spares

end Stepwise.State
