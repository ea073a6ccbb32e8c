import Stepwise.Proofs.Entries
import Stepwise.Proofs.Session.Program
import Stepwise.Proofs.Session.Validation

/-!
# Sessions are scopes

A program can be read without contexts, by the blocks that it is in. Its session is that of the
nearest block that was given an identifier, and what it sees under a key is what was put last in a
block no further out than that one.

* `scopes`: this reading. Leaving a block forgets what was put in it.
* `Follows`: a state and a place in the blocks tell the same; putting and entering keep this
  (`Follows.put`, `Follows.enter`), and so does leaving a state that is restored (`Follows.leave`).
* `alongside_run`: by induction on a program, the two readings go along with each other, whatever
  is raised and caught.
* `sessions_scoped`: so each block leaves the current context as it found it, and what is seen in it
  is what is in scope.
-/

namespace Stepwise.Session

/-! ### The reading by scopes -/

/-- A block that a program is in. -/
structure Level where
  /-- the identifier it was given, if any -/
  given : Option String
  /-- the identifier that is made if it needs one -/
  fresh : String
  /-- what has been put in this block itself, the latest first -/
  puts : Entries String Value := []

/-- **A place in the blocks** of a program, with what has been put there. -/
structure Scope where
  /-- the session outside all blocks -/
  base : Option String
  /-- what has been put outside all blocks, the latest first -/
  held : Entries String Value
  /-- the blocks, the innermost first -/
  levels : List Level := []
  /-- how many identifiers have been made -/
  issued : ℕ

namespace Scope
variable (sc : Scope)

/-- **The session of a block** is fixed by the nearest block that was given an identifier, where an
empty one is replaced by one that is made. If none was given one, it is the session outside all
blocks; if there is none, the outermost block gets one that is made. -/
def sessionIn (base : Option String) : List Level → Option String
  | [] => base
  | level :: outer =>
    match level.given with
    | some id => some (if id = "" then level.fresh else id)
    | none => some ((sessionIn base outer).getD level.fresh)

/-- **What is visible in a block**, the latest first: what was put in it and, up to the nearest block
that was given an identifier, in the blocks around it. -/
def visibleIn (held : Entries String Value) : List Level → Entries String Value
  | [] => held
  | level :: outer =>
    level.puts ++ if level.given.isSome then [] else visibleIn held outer

def sessionId? : Option String := sessionIn sc.base sc.levels

def visible : Entries String Value := visibleIn sc.held sc.levels

/-- What was put last under a key, of what is visible. -/
def value? (key : String) : Option Value := sc.visible.get? key

/-- The identifier that is made next. -/
def freshId : String := Contexts.identifier (sc.issued + 1)

/-- Puts a value in the innermost block. Outside all blocks a session is made if there is none. -/
def put (key : String) (v : Value) : Scope :=
  match sc.levels with
  | level :: outer => { sc with levels := { level with puts := (key, v) :: level.puts } :: outer }
  | [] =>
    { base := some (sc.base.getD sc.freshId)
      held := (key, v) :: sc.held
      issued := if sc.base.isSome then sc.issued else sc.issued + 1 }

/-- Something that is visible goes too deep to be copied. -/
def tooDeep [Limits] : Bool :=
  sc.visible.keys.any fun key => (sc.value? key).any fun v => !Limits.clones v

/-- A block that is entered needs an identifier that is made. -/
def needsId (given : Option String) : Bool :=
  match given with
  | some id => id = ""
  | none => sc.sessionId?.isNone

/-- The place inside a block that is entered. -/
def inner (given : Option String) : Scope :=
  { sc with
    levels := ⟨given, sc.freshId, []⟩ :: sc.levels
    issued := if sc.needsId given then sc.issued + 1 else sc.issued }

/-- Enters a block. One without an identifier is refused if something goes too deep. -/
def enter [Limits] (given : Option String) : Option Scope :=
  if given.isNone && sc.tooDeep then none else some (sc.inner given)

end Scope

/-- The reading by scopes. A block leaves nothing but the number of identifiers that have been
made. -/
def scopes [Limits] : Reading Scope Scope where
  put sc key v := sc.put key v
  sight sc key := ⟨sc.sessionId?, sc.value? key⟩
  enter sc _ given := (sc.enter given).map fun inner => (sc, inner)
  leave inner before := { before with issued := inner.issued }

namespace Scope

/-- A place outside all blocks. -/
def outside (s : State) : Scope where
  base := s.sessionId?
  held := (s.currentContext?.map Context.metadata).getD []
  issued := s.shared.contexts.issued

/-! ### What putting changes of a scope -/

theorem visible_put (sc : Scope) (key : String) (v : Value) :
    (sc.put key v).visible = (key, v) :: sc.visible := by
  obtain ⟨base, held, levels, issued⟩ := sc
  cases levels <;> rfl

theorem sessionId?_put (sc : Scope) (key : String) (v : Value) :
    (sc.put key v).sessionId? = some (sc.sessionId?.getD sc.freshId) := by
  obtain ⟨base, held, levels, issued⟩ := sc
  cases levels with
  | nil => rfl
  | cons level outer =>
    obtain ⟨given, fresh, puts⟩ := level
    cases given <;> rfl

theorem issued_put (sc : Scope) (key : String) (v : Value) :
    (sc.put key v).issued = if sc.sessionId?.isSome then sc.issued else sc.issued + 1 := by
  obtain ⟨base, held, levels, issued⟩ := sc
  cases levels with
  | nil => rfl
  | cons level outer =>
    obtain ⟨given, fresh, puts⟩ := level
    cases given <;> rfl

theorem value?_put (sc : Scope) (key k : String) (v : Value) :
    (sc.put key v).value? k = if key == k then some v else sc.value? k := by
  unfold value?
  rw [visible_put, Entries.get?_cons]

/-! ### What is told inside a block -/

theorem sessionId?_inner_some (sc : Scope) (id : String) :
    (sc.inner (some id)).sessionId? = some (if id = "" then sc.freshId else id) := rfl

theorem sessionId?_inner_none (sc : Scope) :
    (sc.inner none).sessionId? = some (sc.sessionId?.getD sc.freshId) := rfl

theorem value?_inner_some (sc : Scope) (id key : String) :
    (sc.inner (some id)).value? key = none := rfl

theorem value?_inner_none (sc : Scope) (key : String) :
    (sc.inner none).value? key = sc.value? key := rfl

theorem issued_inner_some (sc : Scope) (id : String) :
    (sc.inner (some id)).issued = if id = "" then sc.issued + 1 else sc.issued := by
  unfold inner needsId
  simp only [decide_eq_true_eq]

theorem issued_inner_none (sc : Scope) :
    (sc.inner none).issued = if sc.sessionId?.isNone then sc.issued + 1 else sc.issued := rfl

section Copies
variable [Limits]

theorem enter_none (sc : Scope) :
    sc.enter none = if sc.tooDeep then none else some (sc.inner none) := rfl

theorem tooDeep_iff (sc : Scope) :
    sc.tooDeep = true ↔ ∃ key v, sc.value? key = some v ∧ Limits.clones v = false := by
  unfold tooDeep
  rw [List.any_eq_true]
  constructor
  · rintro ⟨key, -, h⟩
    cases hv : sc.value? key with
    | none => simp [hv] at h
    | some v => exact ⟨key, v, hv, by simpa [hv] using h⟩
  · rintro ⟨key, v, hv, hdeep⟩
    have hkey : sc.visible.hasKey key = true := by
      rw [← Entries.isSome_get?]
      exact Option.isSome_iff_exists.mpr ⟨v, hv⟩
    obtain ⟨j, hj, hjk⟩ := Entries.hasKey_iff.mp hkey
    refine ⟨key, ?_, ?_⟩
    · rw [← beq_iff_eq.mp hjk]
      exact hj
    · rw [hv]
      simpa using hdeep

end Copies

end Scope

end Stepwise.Session

namespace Stepwise

/-! ### Sound states -/

/-- **A sound context**, as contexts are made and as putting keeps them: it has an identifier, and no
key of its metadata comes twice. -/
structure Context.Sound (c : Context) : Prop where
  named : c.sessionId ≠ ""
  distinct : c.metadata.Distinct

/-- **A sound state**: what is current is a context that is there, and it is sound. So it is at the
start (`sound_new`) and behind every program (`sound_run`). -/
def State.Sound (s : State) : Prop :=
  ∀ i, s.ambient.current = some i → ∃ c, s.context? i = some c ∧ c.Sound

theorem Context.sound_new {id : String} (flowName : Option String) (h : id ≠ "") :
    (⟨id, flowName, []⟩ : Context).Sound where
  named := h
  distinct := List.Pairwise.nil

theorem Context.Sound.set {c : Context} (h : c.Sound) (key : String) (v : Value) :
    (c.set key v).Sound where
  named := h.named
  distinct := h.distinct.insert key v

theorem State.sound_new : ({} : State).Sound := by
  intro i hi
  cases hi

theorem State.Sound.cases {s : State} (h : s.Sound) :
    (s.ambient.current = none ∧ s.currentContext? = none) ∨
      ∃ i c, s.ambient.current = some i ∧ s.currentContext? = some c ∧ c.Sound := by
  unfold State.currentContext?
  cases hs : s.ambient.current with
  | none => exact Or.inl ⟨rfl, rfl⟩
  | some i =>
    obtain ⟨c, hc, hsound⟩ := h i hs
    exact Or.inr ⟨i, c, rfl, hc, hsound⟩

end Stepwise

namespace Stepwise.Session

open State

/-- **A state and a scope tell the same**: the session, what is held under each key, and how many
identifiers have been made. -/
structure Follows (s : State) (sc : Scope) : Prop where
  sound : s.Sound
  session : s.sessionId? = sc.sessionId?
  value : ∀ key, s.value? key = sc.value? key
  issued : s.shared.contexts.issued = sc.issued

section Follows
variable {s t : State} {sc sc' : Scope} {c : Context} {i : ContextId}

theorem Follows.outside (h : s.Sound) : Follows s (Scope.outside s) where
  sound := h
  session := rfl
  value key := by
    show s.currentContext?.bind _ = Entries.get? key ((s.currentContext?.map _).getD [])
    cases s.currentContext? <;> rfl
  issued := rfl

/-- Where a context is current, a scope follows that has its session and its values. -/
theorem Follows.of_current (hcurrent : s.currentContext? = some c) (hc : c.Sound)
    (hid : sc.sessionId? = some c.sessionId) (hvalue : ∀ key, sc.value? key = c.get? key)
    (hissued : sc.issued = s.shared.contexts.issued) : Follows s sc where
  sound i hi := by
    unfold currentContext? at hcurrent
    rw [hi] at hcurrent
    exact ⟨c, hcurrent, hc⟩
  session := by
    unfold State.sessionId?
    rw [hcurrent, hid]
    rfl
  value key := by
    unfold State.value?
    rw [hcurrent, hvalue]
    rfl
  issued := hissued.symm

section Step
variable (h : Follows s sc)
include h

theorem Follows.sessionId?_eq {current : Option Context} (hc : s.currentContext? = current) :
    sc.sessionId? = current.map Context.sessionId := by
  rw [← hc]
  exact h.session.symm

theorem Follows.value?_eq {current : Option Context} (hc : s.currentContext? = current)
    (key : String) : sc.value? key = current.bind (·.get? key) := by
  rw [← hc]
  exact (h.value key).symm

/-- **Putting keeps the two alike**, also where a context has to be made first. -/
theorem Follows.put (key : String) (v : Value) : Follows (s.setValue key v) (sc.put key v) := by
  have hset : ∀ c : Context, ∀ k, (c.set key v).get? k = if key == k then some v else c.get? k :=
    fun c k => Entries.get?_insert key k v c.metadata
  obtain ⟨hs, hnone⟩ | ⟨i, c, hs, hc, hsound⟩ := h.sound.cases
  · have hid : sc.sessionId? = none := h.sessionId?_eq hnone
    rw [setValue_outside s hs]
    refine Follows.of_current (currentContext?_setValue rfl (currentContext?_opened s _ _) key v)
      ((Context.sound_new none (identifier_ne_empty _)).set key v) ?_ (fun k => ?_) ?_
    · rw [Scope.sessionId?_put, hid]
      unfold Scope.freshId
      rw [← h.issued]
      rfl
    · rw [Scope.value?_put, hset, h.value?_eq hnone]
      rfl
    · rw [Scope.issued_put, hid, ← h.issued]
      rfl
  · have hid : sc.sessionId? = some c.sessionId := h.sessionId?_eq hc
    refine Follows.of_current (currentContext?_setValue hs hc key v) (hsound.set key v) ?_
      (fun k => ?_) ?_
    · rw [Scope.sessionId?_put, hid]
      rfl
    · rw [Scope.value?_put, hset, h.value?_eq hc, Option.bind_some]
    · rw [Scope.issued_put, hid, setValue_inside s hs, ← h.issued]
      rfl

/-- The metadata can be copied unless something that is visible goes too deep. -/
theorem Follows.copied_eq [Limits] (hc : s.currentContext? = some c) (hsound : c.Sound) :
    c.copied = if sc.tooDeep then .error .tooDeep else .ok c.metadata := by
  have hdeep : sc.tooDeep = true ↔
      ¬(c.metadata.all fun e => Limits.clones e.2) = true := by
    -- no key comes twice, so what is held is what can be looked up
    rw [Scope.tooDeep_iff]
    constructor
    · rintro ⟨key, v, hv, hdeep⟩ hall
      have hmem : (key, v) ∈ c.metadata := by
        rw [h.value?_eq hc] at hv
        exact (hsound.distinct.get?_eq_some_iff key v).mp hv
      exact Bool.false_ne_true (hdeep.symm.trans (List.all_eq_true.mp hall _ hmem))
    · intro hall
      by_contra hno
      refine hall (List.all_eq_true.mpr fun e hmem => ?_)
      by_contra hdeep
      refine hno ⟨e.1, e.2, ?_, Bool.eq_false_iff.mpr hdeep⟩
      rw [h.value?_eq hc]
      exact (hsound.distinct.get?_eq_some_iff e.1 e.2).mpr hmem
  have hcopied : c.copied =
      if c.metadata.all fun e => Limits.clones e.2 then .ok c.metadata
      else .error .tooDeep := rfl
  rw [hcopied]
  by_cases hsc : sc.tooDeep = true
  · rw [if_neg (hdeep.mp hsc), if_pos hsc]
  · rw [if_pos (by_contra fun hall => hsc (hdeep.mpr hall)), if_neg hsc]

theorem Follows.freshId : sc.freshId = s.freshId := by
  unfold Scope.freshId State.freshId
  rw [h.issued]

/-- A block that is given an identifier sees nothing of what is around it. -/
theorem Follows.inner_some (flowName : Option String) (id : String) :
    Follows (s.opened ⟨if id = "" then s.freshId else id, flowName, []⟩
      (if id = "" then s.shared.contexts.issued + 1 else s.shared.contexts.issued))
      (sc.inner (some id)) := by
  have hnamed : (if id = "" then s.freshId else id) ≠ "" := by
    split
    · exact identifier_ne_empty _
    · assumption
  refine Follows.of_current (currentContext?_opened s _ _) (Context.sound_new flowName hnamed) ?_
    (fun key => Scope.value?_inner_some sc id key) ?_
  · rw [Scope.sessionId?_inner_some, h.freshId]
  · rw [Scope.issued_inner_some, ← h.issued]
    rfl

theorem Follows.inner_outside (flowName : Option String) (hnone : s.currentContext? = none) :
    Follows (s.opened ⟨s.freshId, flowName, []⟩ (s.shared.contexts.issued + 1))
      (sc.inner none) := by
  have hid : sc.sessionId? = none := h.sessionId?_eq hnone
  refine Follows.of_current (currentContext?_opened s _ _)
    (Context.sound_new flowName (identifier_ne_empty _)) ?_ (fun key => ?_) ?_
  · rw [Scope.sessionId?_inner_none, hid, h.freshId]
    rfl
  · rw [Scope.value?_inner_none, h.value?_eq hnone]
    rfl
  · rw [Scope.issued_inner_none, hid, ← h.issued]
    rfl

theorem Follows.inner_inside (flowName : Option String) (hc : s.currentContext? = some c)
    (hsound : c.Sound) :
    Follows (s.opened ⟨c.sessionId, Contexts.forkName c flowName, c.metadata⟩
      s.shared.contexts.issued) (sc.inner none) := by
  have hid : sc.sessionId? = some c.sessionId := h.sessionId?_eq hc
  refine Follows.of_current (currentContext?_opened s _ _) ⟨hsound.named, hsound.distinct⟩ ?_
    (fun key => ?_) ?_
  · rw [Scope.sessionId?_inner_none, hid]
    rfl
  · rw [Scope.value?_inner_none, h.value?_eq hc]
    rfl
  · rw [Scope.issued_inner_none, hid, ← h.issued]
    rfl

/-- **A block is refused by both or entered by both.** -/
theorem Follows.enter [Limits] (flowName given : Option String) :
    ((s.enter flowName given).toOption = none ∧ sc.enter given = none) ∨
      ∃ c issued, s.enter flowName given = .ok (s.ambient.current, s.opened c issued) ∧
        sc.enter given = some (sc.inner given) ∧ Follows (s.opened c issued) (sc.inner given) := by
  cases given with
  | some id => exact Or.inr ⟨_, _, enter_given s flowName id, rfl, h.inner_some flowName id⟩
  | none =>
    obtain ⟨-, hnone⟩ | ⟨i, c, -, hc, hsound⟩ := h.sound.cases
    · have hshallow : ¬ sc.tooDeep = true := by
        intro hdeep
        obtain ⟨key, v, hv, -⟩ := sc.tooDeep_iff.mp hdeep
        rw [h.value?_eq hnone] at hv
        cases hv
      have hentered : sc.enter none = some (sc.inner none) := by
        rw [Scope.enter_none, if_neg hshallow]
      exact Or.inr ⟨_, _, enter_outside s flowName hnone, hentered,
        h.inner_outside flowName hnone⟩
    · have hcopied := h.copied_eq hc hsound
      have hentered := sc.enter_none
      by_cases hdeep : sc.tooDeep = true
      · rw [if_pos hdeep] at hcopied hentered
        refine Or.inl ⟨?_, hentered⟩
        rw [enter_refused s flowName hc hcopied]
        rfl
      · rw [if_neg hdeep] at hcopied hentered
        exact Or.inr ⟨_, _, enter_inside s flowName hc hsound.named hcopied, hentered,
          h.inner_inside flowName hc hsound⟩

/-- **Leaving keeps the two alike**, since the state is restored. -/
theorem Follows.leave (hinner : Follows t sc') (hback : s.Restored (t.leave s.ambient.current)) :
    Follows (t.leave s.ambient.current) { sc with issued := sc'.issued } where
  sound i hi := by
    obtain ⟨c, hc, hsound⟩ := h.sound i hi
    exact ⟨c, hback.others i c hc, hsound⟩
  session := by
    rw [← hback.sessionId?]
    exact h.session
  value key := by
    rw [← hback.value?]
    exact h.value key
  issued := hinner.issued

end Step

end Follows

/-! ### Identifiers that are made -/

/-- The number that a row of digits in base sixteen stands for. -/
def hexNumber (cs : List Char) : ℕ :=
  cs.foldl (fun n c => 16 * n + (Text.hexValue? c).getD 0) 0

theorem hexNumber_concat (cs : List Char) (c : Char) :
    hexNumber (cs ++ [c]) = 16 * hexNumber cs + (Text.hexValue? c).getD 0 := by
  unfold hexNumber
  rw [List.foldl_append]
  rfl

theorem hexValue?_digitChar : ∀ d < 16, (Text.hexValue? (Nat.digitChar d)).getD 0 = d := by decide

theorem hexNumber_toDigits (n : ℕ) : hexNumber (Nat.toDigits 16 n) = n := by
  induction n using Nat.strongRecOn with
  | ind n ih =>
    rw [Nat.toDigits_eq_if (by decide)]
    split
    · next hlt =>
      have hdigit := hexNumber_concat [] (Nat.digitChar n)
      rw [hexValue?_digitChar n hlt] at hdigit
      simpa [hexNumber] using hdigit
    · rw [hexNumber_concat, ih (n / 16) (by omega),
        hexValue?_digitChar (n % 16) (Nat.mod_lt _ (by decide))]
      omega

theorem hexNumber_zeros (width : ℕ) (cs : List Char) :
    hexNumber (List.replicate width '0' ++ cs) = hexNumber cs := by
  induction width with
  | zero => rfl
  | succ width ih =>
    rw [List.replicate_succ, ← ih]
    rfl

/-- No identifier is made twice. -/
theorem identifier_injective : Function.Injective Contexts.identifier := by
  intro m n h
  have hdigits : Text.paddedHex 32 m = Text.paddedHex 32 n := by
    have hlist := congrArg String.toList h
    unfold Contexts.identifier at hlist
    rwa [String.toList_ofList, String.toList_ofList] at hlist
  have hnumber : ∀ n, hexNumber (Text.paddedHex 32 n) = n := by
    intro n
    unfold Text.paddedHex
    rw [hexNumber_zeros, hexNumber_toDigits]
  rw [← hnumber m, ← hnumber n, hdigits]

/-! ### The two readings go along with each other -/

/-- **Two courses go along with each other** from a state on: they end alike, the same is seen, and
the states in which the blocks were entered are restored. -/
structure Alongside (s : State) (c : Course State) (d : Course Scope) : Prop where
  raised : c.raised = d.raised
  sights : c.sights = d.sights
  follows : Follows c.state d.state
  spares : s.Spares c.state
  restored : ∀ e ∈ c.left, e.1.Restored e.2

section Alongside
variable {s t : State} {c c' : Course State} {d d' : Course Scope}

theorem Alongside.after (hst : s.Spares t) (h : Alongside t c d) : Alongside s c d where
  raised := h.raised
  sights := h.sights
  follows := h.follows
  spares := hst.trans h.spares
  restored := h.restored

theorem Alongside.followedBy (h : Alongside s c d) (h' : Alongside c.state c' d') :
    Alongside s (c.followedBy c') (d.followedBy d') where
  raised := h'.raised
  sights := by
    show c.sights ++ c'.sights = d.sights ++ d'.sights
    rw [h.sights, h'.sights]
  follows := h'.follows
  spares := h.spares.trans h'.spares
  restored e he := by
    rcases List.mem_append.mp he with he | he
    · exact h.restored e he
    · exact h'.restored e he

section Continue
variable {k : State → Course State} {k' : Scope → Course Scope} (h : Alongside s c d)
  (hk : ∀ t sc, Follows t sc → Alongside t (k t) (k' sc))
include h hk

theorem Alongside.next : Alongside s (c.next k) (d.next k') := by
  unfold Course.next
  rw [← h.raised]
  split
  · exact h
  · exact h.followedBy (hk _ _ h.follows)

theorem Alongside.rescue : Alongside s (c.rescue k) (d.rescue k') := by
  unfold Course.rescue
  rw [← h.raised]
  split
  · exact h.followedBy (hk _ _ h.follows)
  · exact h

end Continue

/-- Leaving a block restores the state in which it was entered. -/
theorem Alongside.leaving [Limits] {sc : Scope} {context : Context} {issued : ℕ} (hs : Follows s sc)
    (h : Alongside (s.opened context issued) c d) :
    Alongside s (c.leaving s (contexts.leave · s.ambient.current))
      (d.leaving sc (scopes.leave · sc)) := by
  have hthere : ∀ i, s.ambient.current = some i → ∃ e, s.context? i = some e := by
    intro i hi
    obtain ⟨e, he, -⟩ := hs.sound i hi
    exact ⟨e, he⟩
  have hback : s.Restored (c.state.leave s.ambient.current) := restored_leave hthere h.spares
  refine ⟨h.raised, h.sights, hs.leave h.follows hback, hback.spares, fun e he => ?_⟩
  rcases List.mem_append.mp he with he | he
  · exact h.restored e he
  · rw [List.mem_singleton.mp he]
    exact hback

end Alongside

section Programs
variable [Limits]

/-- **What a program does to the contexts and to the scopes goes along with each other.** -/
theorem alongside_run (p : Program) : ∀ s sc, Follows s sc →
    Alongside s (p.run contexts s) (p.run scopes sc) := by
  -- a part of a program starts where the parts before it have led, so the start is left open
  induction p with
  | done => exact fun s sc h => ⟨rfl, rfl, h, Spares.refl s, by simp [Program.run]⟩
  | fail => exact fun s sc h => ⟨rfl, rfl, h, Spares.refl s, by simp [Program.run]⟩
  | put key v rest ih =>
    intro s sc h
    exact (ih _ _ (h.put key v)).after (spares_setValue s key v)
  | look key rest ih =>
    intro s sc h
    have hsight : contexts.sight s key = scopes.sight sc key :=
      congrArg₂ Sight.mk h.session (h.value key)
    have hlook : Alongside s { sights := [contexts.sight s key], state := s }
        { sights := [scopes.sight sc key], state := sc } := by
      refine ⟨rfl, ?_, h, Spares.refl s, by simp⟩
      rw [hsight]
    exact hlook.next ih
  | block flowName sessionId body rest ihbody ihrest =>
    intro s sc h
    have hcontexts : contexts.enter s flowName sessionId = (s.enter flowName sessionId).toOption :=
      rfl
    have hscopes : scopes.enter sc flowName sessionId =
        (sc.enter sessionId).map fun inner => (sc, inner) := rfl
    unfold Program.run
    rw [hcontexts, hscopes]
    obtain ⟨hs, hsc⟩ | ⟨c, issued, hs, hsc, hinner⟩ := h.enter flowName sessionId
    · rw [hs, hsc]
      exact ⟨rfl, rfl, h, Spares.refl s, by simp⟩
    · rw [hs, hsc]
      exact ((ihbody _ _ hinner).leaving h).next ihrest
  | attempt body handler rest ihbody ihhandler ihrest =>
    intro s sc h
    exact ((ihbody s sc h).rescue ihhandler).next ihrest

theorem sound_run (p : Program) {s : State} (h : s.Sound) : (p.run contexts s).state.Sound :=
  (alongside_run p s (Scope.outside s) (Follows.outside h)).follows.sound

/-- **Sessions are scopes**, for every program and whatever it raises and catches. Each block that is
left leaves the context that was current on entering it as it was, and current. What the program
sees, and whether it ends by an exception, is told by the scopes; the identifiers that are made for
them differ from each other. -/
theorem sessions_scoped (p : Program) (s : State) (h : s.Sound) :
    (∀ e ∈ (p.run contexts s).left, e.1.Restored e.2) ∧
      (p.run contexts s).sights = (p.run scopes (Scope.outside s)).sights ∧
      (p.run contexts s).raised = (p.run scopes (Scope.outside s)).raised ∧
      Function.Injective Contexts.identifier := by
  have halong := alongside_run p s (Scope.outside s) (Follows.outside h)
  exact ⟨halong.restored, halong.sights, halong.raised, identifier_injective⟩

end Programs

attribute [local instance] Limits.thousandFrames

/-- A block that takes over the session and what is held in it. In it, a block with an empty
identifier looks a key up in vain and raises, which is caught around it. -/
def nested : Program :=
  .block (some "outer") none
    (.put "k" (.int 2)
      (.attempt (.block (some "inner") (some "") (.look "k" .fail) .done) (.look "k" .done) .done))
    (.look "k" .done)

/-- A state in which a session is current. -/
def inSession : State := ({} : State).opened ⟨"s", none, [("k", .int 1)]⟩ 0

theorem sessions_scoped_nested : inSession.Sound ∧
    ((∀ e ∈ (nested.run contexts inSession).left, e.1.Restored e.2) ∧
      (nested.run contexts inSession).sights =
        (nested.run scopes (Scope.outside inSession)).sights ∧
      (nested.run contexts inSession).raised =
        (nested.run scopes (Scope.outside inSession)).raised ∧
      Function.Injective Contexts.identifier) ∧
    (nested.run scopes (Scope.outside inSession)).sights =
      [⟨some (Contexts.identifier 1), none⟩, ⟨some "s", some (.int 2)⟩,
        ⟨some "s", some (.int 1)⟩] := by
  have hsound : inSession.Sound := by
    intro i hi
    cases hi
    exact ⟨_, rfl, by decide, by decide⟩
  exact ⟨hsound, sessions_scoped nested inSession hsound, rfl⟩

end Stepwise.Session
