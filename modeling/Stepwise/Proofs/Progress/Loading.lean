import Stepwise.Proofs.Json.Nesting
import Stepwise.Proofs.Progress.Client

/-!
# What can be loaded

A store may hold any texts. What can be loaded of them is told by the values that the texts hold: for
progress an object whose members for the steps, if there are any, describe the progress of a step
each, and for a history a list. All other texts are refused with what is wrong with them, as long as
they do not nest too deep.

* `Reads`: the progress that a value describes; `ofValue_eq_ok_iff` says that it is what is read, and
  `exists_reads_iff` which values describe any.
* `Shallow`: no text nests deeper than what can be read. Then what is wrong with a text is the cause
  why it is refused (`Shallow.progress_eq`, `Shallow.history_cases`).
* `loaded_iff`: which texts are loaded and which are refused, and that loading changes no text.
-/

namespace Stepwise

namespace Progress

open Value (field?)

/-! ### Values that describe progress -/

/-- **The progress of a step that a value describes.** What is not said is as in fresh progress. -/
structure ReadsStep (es : Entries Scalar Value) (s : StepProgress) : Prop where
  status : field? es "status" = none ∧ s.status = .notStarted ∨
    field? es "status" = some (.text s.status.spelling)
  iterations : s.iterations = (field? es "iterations").getD (.int 0)
  output : s.output = (field? es "output").getD (.dict [])

/-- The progress of a step that a member of an object describes, under the member's name. -/
def ReadsMember (m : Scalar × Value) (e : Text × StepProgress) : Prop :=
  nameOf m.1 = e.1 ∧ ∃ es, m.2 = .dict es ∧ ReadsStep es e.2

/-- **The progress that a value describes.** What is not said is as in fresh progress. -/
structure Reads (es : Entries Scalar Value) (p : Progress) : Prop where
  current : p.current = (field? es "current_step_index").getD (.int 0)
  bindings : p.bindings = (field? es "variables").getD (.dict [])
  steps : field? es "step_states" = none ∧ p.steps = [] ∨
    ∃ ms, field? es "step_states" = some (.dict ms) ∧ List.Forall₂ ReadsMember ms p.steps

/-- A value from which the progress of a step can be read: an object whose status, if it has one, is
one of the three. -/
def DescribesStep (v : Value) : Prop :=
  ∃ es, v = .dict es ∧ ∀ w, field? es "status" = some w → ∃ t : Status, w = .text t.spelling

/-- **A value from which progress can be read**: an object whose member for the steps, if it has one,
is an object from all of whose values the progress of a step can be read. -/
def Describes (v : Value) : Prop :=
  ∃ es, v = .dict es ∧ ∀ w, field? es "step_states" = some w →
    ∃ ms, w = .dict ms ∧ ∀ m ∈ ms, DescribesStep m.2

theorem statusOf_eq_ok_iff {v : Value} {t : Status} :
    statusOf v = .ok t ↔ v = .text t.spelling := by
  constructor
  · intro h
    unfold statusOf at h
    split at h
    · next u hu =>
      cases h
      obtain ⟨word, hword, hspelling⟩ := Option.bind_eq_some_iff.mp hu
      obtain ⟨text, htext, hstring⟩ := Option.bind_eq_some_iff.mp hword
      rw [Status.spelling_of_ofSpelling? hspelling, ← Text.string?_eq_some_iff.mp hstring]
      unfold Value.text? at htext
      split at htext
      · cases htext
        rfl
      · next c =>
        -- no policy is spelled like a status
        cases htext
        rw [Text.string?_ofString] at hstring
        cases hstring
        have hnone : Status.ofSpelling? c.spelling = none := by cases c <;> decide
        rw [hnone] at hspelling
        cases hspelling
      · cases htext
    · cases h
  · rintro rfl
    exact statusOf_spelling t

theorem member_eq_iff {es : Entries Scalar Value} {name : String} {fresh v : Value} :
    member es name fresh = v ↔ field? es name = none ∧ fresh = v ∨ field? es name = some v := by
  unfold member
  cases field? es name with
  | none => simp
  | some w => simp

theorem spelling_inj {t u : Status} (h : (t.spelling : Text) = u.spelling) : t = u := by
  have hfound := congrArg Status.ofSpelling? (Text.ofString_inj.mp h)
  rw [Status.ofSpelling?_spelling, Status.ofSpelling?_spelling] at hfound
  exact Option.some.inj hfound

theorem stepOfValue_eq_ok_iff {v : Value} {s : StepProgress} :
    stepOfValue v = .ok s ↔ ∃ es, v = .dict es ∧ ReadsStep es s := by
  constructor
  · intro h
    unfold stepOfValue at h
    split at h
    · next es =>
      obtain ⟨t, ht, hs⟩ := bind_eq_ok_iff.mp h
      cases hs
      refine ⟨es, rfl, ?_, rfl, rfl⟩
      rcases member_eq_iff.mp (statusOf_eq_ok_iff.mp ht) with ⟨hnone, hfresh⟩ | hsome
      · have hspelling : ((Status.notStarted).spelling : Text) = t.spelling := by
          injection hfresh with hscalar
          injection hscalar
        exact Or.inl ⟨hnone, (spelling_inj hspelling).symm⟩
      · exact Or.inr hsome
    · cases h
  · rintro ⟨es, rfl, hstatus, hiterations, houtput⟩
    have ht : statusOf (member es "status" (.text (Status.notStarted).spelling)) =
        .ok s.status := by
      refine statusOf_eq_ok_iff.mpr (member_eq_iff.mpr ?_)
      rcases hstatus with ⟨hnone, hfresh⟩ | hsome
      · exact Or.inl ⟨hnone, by rw [hfresh]⟩
      · exact Or.inr hsome
    obtain ⟨status, iterations, output⟩ := s
    obtain rfl : iterations = _ := hiterations
    obtain rfl : output = _ := houtput
    exact bind_eq_ok_iff.mpr ⟨status, ht, rfl⟩

theorem stepsOfMembers_eq_ok_iff {ms : List (Scalar × Value)} {steps : Entries Text StepProgress} :
    stepsOfMembers ms = .ok steps ↔ List.Forall₂ ReadsMember ms steps := by
  induction ms generalizing steps with
  | nil =>
    rw [List.forall₂_nil_left_iff]
    exact ⟨fun h => (Except.ok.inj h).symm, fun h => congrArg Except.ok h.symm⟩
  | cons m ms ih =>
    obtain ⟨k, v⟩ := m
    rw [List.forall₂_cons_left_iff]
    constructor
    · intro h
      obtain ⟨s, hs, h⟩ := bind_eq_ok_iff.mp h
      obtain ⟨rest, hrest, hr⟩ := bind_eq_ok_iff.mp h
      exact ⟨(nameOf k, s), rest, ⟨rfl, stepOfValue_eq_ok_iff.mp hs⟩, ih.mp hrest,
        (Except.ok.inj hr).symm⟩
    · rintro ⟨⟨key, s⟩, rest, ⟨rfl, hs⟩, hrest, rfl⟩
      exact bind_eq_ok_iff.mpr ⟨s, stepOfValue_eq_ok_iff.mpr hs,
        bind_eq_ok_iff.mpr ⟨rest, ih.mpr hrest, rfl⟩⟩

/-- **What a value describes is what is read from it.** -/
theorem ofValue_eq_ok_iff {v : Value} {p : Progress} :
    ofValue v = .ok p ↔ ∃ es, v = .dict es ∧ Reads es p := by
  constructor
  · intro h
    unfold ofValue at h
    split at h
    · next es =>
      refine ⟨es, rfl, ?_⟩
      simp only at h
      split at h
      · next ms hms =>
        obtain ⟨steps, hsteps, hp⟩ := bind_eq_ok_iff.mp h
        cases hp
        refine ⟨rfl, rfl, ?_⟩
        rcases member_eq_iff.mp hms with ⟨hnone, hempty⟩ | hsome
        · cases hempty
          exact Or.inl ⟨hnone, (Except.ok.inj hsteps).symm⟩
        · exact Or.inr ⟨ms, hsome, stepsOfMembers_eq_ok_iff.mp hsteps⟩
      · cases h
    · cases h
  · rintro ⟨es, rfl, hcurrent, hbindings, hsteps⟩
    obtain ⟨ms, hms, hread⟩ : ∃ ms, member es "step_states" (.dict []) = .dict ms ∧
        stepsOfMembers ms = .ok p.steps := by
      rcases hsteps with ⟨hnone, hempty⟩ | ⟨ms, hsome, hall⟩
      · exact ⟨[], member_eq_iff.mpr (Or.inl ⟨hnone, rfl⟩), by rw [hempty]; rfl⟩
      · exact ⟨ms, member_eq_iff.mpr (Or.inr hsome), stepsOfMembers_eq_ok_iff.mpr hall⟩
    obtain ⟨current, bindings, steps⟩ := p
    obtain rfl : current = _ := hcurrent
    obtain rfl : bindings = _ := hbindings
    unfold ofValue
    simp only [hms]
    exact bind_eq_ok_iff.mpr ⟨steps, hread, rfl⟩

theorem exists_readsStep_iff {v : Value} :
    (∃ s, ∃ es, v = .dict es ∧ ReadsStep es s) ↔ DescribesStep v := by
  constructor
  · rintro ⟨s, es, rfl, hs⟩
    refine ⟨es, rfl, fun w hw => ?_⟩
    rcases hs.status with ⟨hnone, -⟩ | hsome
    · rw [hnone] at hw
      cases hw
    · rw [hsome] at hw
      exact ⟨s.status, (Option.some.inj hw).symm⟩
  · rintro ⟨es, rfl, hstatus⟩
    cases hfield : field? es "status" with
    | none => exact ⟨⟨.notStarted, _, _⟩, es, rfl, Or.inl ⟨hfield, rfl⟩, rfl, rfl⟩
    | some w =>
      obtain ⟨t, rfl⟩ := hstatus w hfield
      exact ⟨⟨t, _, _⟩, es, rfl, Or.inr hfield, rfl, rfl⟩

theorem exists_reads_iff {v : Value} :
    (∃ p, ∃ es, v = .dict es ∧ Reads es p) ↔ Describes v := by
  constructor
  · rintro ⟨p, es, rfl, hp⟩
    refine ⟨es, rfl, fun w hw => ?_⟩
    rcases hp.steps with ⟨hnone, -⟩ | ⟨ms, hsome, hall⟩
    · rw [hnone] at hw
      cases hw
    · rw [hsome] at hw
      have hdescribes := hall.imp fun m e h =>
        And.intro (exists_readsStep_iff.mp ⟨e.2, h.2⟩) h
      exact ⟨ms, (Option.some.inj hw).symm, ((List.forall₂_and_left _ _).mp hdescribes).1⟩
  · rintro ⟨es, rfl, hsteps⟩
    cases hfield : field? es "step_states" with
    | none => exact ⟨⟨_, _, []⟩, es, rfl, rfl, rfl, Or.inl ⟨hfield, rfl⟩⟩
    | some w =>
      obtain ⟨ms, rfl, hall⟩ := hsteps w hfield
      have hread : ∀ m ∈ ms, ∃ e, ReadsMember m e := by
        intro m hm
        obtain ⟨s, hs⟩ := exists_readsStep_iff.mpr (hall m hm)
        exact ⟨(nameOf m.1, s), rfl, hs⟩
      obtain ⟨steps, hsteps⟩ := Json.exists_forall₂ (R := flip ReadsMember) hread
      exact ⟨⟨_, _, steps⟩, es, rfl, rfl, rfl, Or.inr ⟨ms, hfield, hsteps.flip⟩⟩

/-! ### Texts that hold progress -/

theorem stepOfValue_ne_text (v : Value) (e : Json.ReadError) :
    stepOfValue v ≠ .error (.text e) := by
  intro h
  unfold stepOfValue at h
  split at h
  · rcases bind_eq_error_iff.mp h with h | ⟨t, -, h⟩
    · unfold statusOf at h
      split at h
      · cases h
      · cases h
    · cases h
  · cases h

theorem stepsOfMembers_ne_text (ms : List (Scalar × Value)) (e : Json.ReadError) :
    stepsOfMembers ms ≠ .error (.text e) := by
  induction ms with
  | nil => exact nofun
  | cons m ms ih =>
    intro h
    rcases bind_eq_error_iff.mp h with h | ⟨s, -, h⟩
    · exact stepOfValue_ne_text m.2 e h
    · rcases bind_eq_error_iff.mp h with h | ⟨steps, -, h⟩
      · exact ih h
      · cases h

/-- What is wrong with a value is nothing that could be wrong with a text. -/
theorem ofValue_ne_text (v : Value) (e : Json.ReadError) : ofValue v ≠ .error (.text e) := by
  intro h
  unfold ofValue at h
  split at h
  · simp only at h
    split at h
    · next ms _ =>
      rcases bind_eq_error_iff.mp h with h | ⟨steps, -, h⟩
      · exact stepsOfMembers_ne_text ms e h
      · cases h
    · cases h
  · cases h

section Texts
variable [Limits] {text : Text}

theorem ofText_eq_ok_iff {p : Progress} :
    ofText text = .ok p ↔ ∃ es, Json.read text = .ok (.dict es) ∧ Reads es p := by
  rw [ofText, bind_eq_ok_iff]
  constructor
  · rintro ⟨v, hv, hp⟩
    obtain ⟨es, rfl, hreads⟩ := ofValue_eq_ok_iff.mp hp
    exact ⟨es, mapError_eq_ok_iff.mp hv, hreads⟩
  · rintro ⟨es, hes, hreads⟩
    exact ⟨.dict es, mapError_eq_ok_iff.mpr hes, ofValue_eq_ok_iff.mpr ⟨es, rfl, hreads⟩⟩

/-- **The texts that hold progress.** -/
theorem exists_ofText_iff :
    (∃ p, ofText text = .ok p) ↔ ∃ v, Json.read text = .ok v ∧ Describes v := by
  constructor
  · rintro ⟨p, hp⟩
    obtain ⟨es, hes, hreads⟩ := ofText_eq_ok_iff.mp hp
    exact ⟨.dict es, hes, exists_reads_iff.mp ⟨p, es, rfl, hreads⟩⟩
  · rintro ⟨v, hv, hdescribes⟩
    obtain ⟨p, es, rfl, hreads⟩ := exists_reads_iff.mpr hdescribes
    exact ⟨p, ofText_eq_ok_iff.mpr ⟨es, hv, hreads⟩⟩

end Texts

end Progress

namespace ProgressStore

/-! ### What a store loads -/

/-- Nothing is stored under a key that has no text or the empty one. -/
def Unstored (st : ProgressStore) (key : Text) : Prop :=
  st.text? key = none ∨ st.text? key = some []

section Loads
variable [Limits]

/-- **What is loaded as the progress of a session**, told by the text under its key. -/
structure LoadsProgress (st : ProgressStore) (s : Text) : Prop where
  unstored : st.Unstored (progressKey s) → st.progress s = .ok {}
  loaded : ∀ text, st.text? (progressKey s) = some text → text ≠ [] → ∀ p,
    st.progress s = .ok p ↔ ∃ es, Json.read text = .ok (.dict es) ∧ Progress.Reads es p
  accepted : ∀ text, st.text? (progressKey s) = some text → text ≠ [] →
    ((∃ p, st.progress s = .ok p) ↔ ∃ v, Json.read text = .ok v ∧ Progress.Describes v)
  refused : ∀ e, st.progress s = .error e →
    ∃ text cause, st.text? (progressKey s) = some text ∧ Progress.ofText text = .error cause ∧
      e = .unreadableProgress s text cause

/-- Why a text holds no list: it cannot be read, for a cause, or it holds something else. -/
def NoList (text : Text) : Option Json.ReadError → Prop
  | some cause => Json.read text = .error cause
  | none => ∃ v, Json.read text = .ok v ∧ ∀ xs, v ≠ .list xs

/-- **What is loaded as the history of a step in a session**, told by the text under its key. -/
structure LoadsHistory (st : ProgressStore) (s t : Text) : Prop where
  unstored : st.history s t = .ok none ↔ st.Unstored (historyKey s t)
  loaded : ∀ text, st.text? (historyKey s t) = some text → text ≠ [] → ∀ xs,
    st.history s t = .ok (some xs) ↔ Json.read text = .ok (.list xs)
  refused : ∀ e, st.history s t = .error e →
    ∃ text cause, st.text? (historyKey s t) = some text ∧ NoList text cause ∧
      e = .unreadableHistory s text cause

end Loads

theorem stored?_of_unstored {st : ProgressStore} {key : Text} (h : st.Unstored key) :
    st.stored? key = none := by
  rcases h with h | h
  · simp [stored?, h]
  · simp [stored?, h]

theorem stored?_cases (st : ProgressStore) (key : Text) :
    (st.Unstored key ∧ st.stored? key = none) ∨
      ∃ text, st.text? key = some text ∧ text ≠ [] ∧ st.stored? key = some text := by
  cases htext : st.text? key with
  | none => exact Or.inl ⟨Or.inl htext, stored?_of_unstored (Or.inl htext)⟩
  | some text =>
    by_cases hempty : text = []
    · subst hempty
      exact Or.inl ⟨Or.inr htext, stored?_of_unstored (Or.inr htext)⟩
    · exact Or.inr ⟨text, rfl, hempty, stored?_of_text? htext hempty⟩

section Shallow
variable [Limits]

theorem NoList.ne_list {text : Text} {cause : Option Json.ReadError} (h : NoList text cause)
    (xs : List Value) : Json.read text ≠ .ok (.list xs) := by
  intro hread
  cases cause with
  | some cause =>
    have herror : Json.read text = .error cause := h
    rw [hread] at herror
    cases herror
  | none =>
    obtain ⟨v, hv, hlist⟩ := h
    rw [hread] at hv
    exact hlist xs (Except.ok.inj hv).symm

/-- No stored text nests deeper than what can be read. -/
def Shallow (st : ProgressStore) : Prop :=
  ∀ key text, st.text? key = some text → Json.nesting text ≤ Limits.reading

theorem shallow_of_forall {st : ProgressStore}
    (h : ∀ e ∈ st.records, Json.nesting e.2 ≤ Limits.reading) : st.Shallow := by
  intro key text htext
  obtain ⟨e, he, rfl⟩ := Option.map_eq_some_iff.mp htext
  exact h e (List.mem_of_find?_eq_some he)

section Load
variable {st : ProgressStore} (h : st.Shallow)
include h

theorem Shallow.read_ne_tooDeep {key text : Text} (htext : st.text? key = some text)
    (isArray : Bool) : Json.read text ≠ .error (.tooDeep isArray) := by
  intro hread
  have hdeep := Json.lt_nesting_of_tooDeep hread
  have hshallow := h key text htext
  omega

/-- What is wrong with a text is the cause why it is refused. -/
theorem Shallow.progress_eq {s text : Text} (htext : st.text? (progressKey s) = some text)
    (hne : text ≠ []) :
    st.progress s = (Progress.ofText text).mapError (.unreadableProgress s text) := by
  have hdeep : ∀ isArray, Progress.ofText text ≠ .error (.text (.tooDeep isArray)) := by
    intro isArray hread
    rcases bind_eq_error_iff.mp hread with hread | ⟨v, -, hshape⟩
    · obtain ⟨e, he, htoo⟩ := mapError_eq_error_iff.mp hread
      cases htoo
      exact h.read_ne_tooDeep htext isArray he
    · exact Progress.ofValue_ne_text v _ hshape
  unfold progress
  rw [stored?_of_text? htext hne]
  cases hread : Progress.ofText text with
  | ok p => simp only [hread]; rfl
  | error cause =>
    simp only [hread]
    cases cause with
    | text e =>
      cases e with
      | tooDeep isArray => exact absurd hread (hdeep isArray)
      | _ => rfl
    | _ => rfl

/-- What is loaded of a text is the list that it holds, or else why it holds none. -/
theorem Shallow.history_cases {s t text : Text}
    (htext : st.text? (historyKey s t) = some text) (hne : text ≠ []) :
    (∃ xs, Json.read text = .ok (.list xs) ∧ st.history s t = .ok (some xs)) ∨
      ∃ cause, NoList text cause ∧ st.history s t = .error (.unreadableHistory s text cause) := by
  unfold history
  rw [stored?_of_text? htext hne]
  cases hread : Json.read text with
  | error cause =>
    refine Or.inr ⟨some cause, hread, ?_⟩
    simp only [hread]
    cases cause with
    | tooDeep isArray => exact absurd hread (h.read_ne_tooDeep htext isArray)
    | malformed => rfl
    | longNumber => rfl
  | ok v =>
    simp only [hread]
    cases v with
    | list xs => exact Or.inl ⟨xs, rfl, rfl⟩
    | _ => exact Or.inr ⟨none, ⟨_, hread, nofun⟩, rfl⟩

theorem Shallow.loadsProgress (s : Text) : st.LoadsProgress s where
  unstored hunstored := by
    unfold progress
    rw [stored?_of_unstored hunstored]
  loaded text htext hne p := by
    rw [h.progress_eq htext hne, mapError_eq_ok_iff, Progress.ofText_eq_ok_iff]
  accepted text htext hne := by
    rw [← Progress.exists_ofText_iff, h.progress_eq htext hne]
    simp only [mapError_eq_ok_iff]
  refused e he := by
    rcases stored?_cases st (progressKey s) with ⟨-, hnone⟩ | ⟨text, htext, hne, -⟩
    · unfold progress at he
      rw [hnone] at he
      cases he
    · rw [h.progress_eq htext hne] at he
      obtain ⟨cause, hcause, rfl⟩ := mapError_eq_error_iff.mp he
      exact ⟨text, cause, htext, hcause, rfl⟩

theorem Shallow.loadsHistory (s t : Text) : st.LoadsHistory s t where
  unstored := by
    constructor
    · intro hhistory
      rcases stored?_cases st (historyKey s t) with ⟨hunstored, -⟩ | ⟨text, htext, hne, -⟩
      · exact hunstored
      · rcases h.history_cases htext hne with ⟨xs, -, hloaded⟩ | ⟨cause, -, hrefused⟩
        · rw [hloaded] at hhistory
          cases hhistory
        · rw [hrefused] at hhistory
          cases hhistory
    · intro hunstored
      unfold history
      rw [stored?_of_unstored hunstored]
  loaded text htext hne xs := by
    rcases h.history_cases htext hne with ⟨ys, hread, hloaded⟩ | ⟨cause, hcause, hrefused⟩
    · simp [hread, hloaded]
    · rw [hrefused]
      exact ⟨nofun, fun hread => absurd hread (hcause.ne_list xs)⟩
  refused e he := by
    rcases stored?_cases st (historyKey s t) with ⟨-, hnone⟩ | ⟨text, htext, hne, -⟩
    · unfold history at he
      rw [hnone] at he
      cases he
    · rcases h.history_cases htext hne with ⟨xs, -, hloaded⟩ | ⟨cause, hcause, hrefused⟩
      · rw [hloaded] at he
        cases he
      · rw [hrefused] at he
        cases he
        exact ⟨text, cause, htext, hcause, rfl⟩

end Load

end Shallow

/-- Whether an action of a client loads something. -/
def Action.Loads : Action → Prop
  | .loadProgress _ _ | .loadHistory _ _ => True
  | .change _ | .saveProgress _ _ | .saveHistory _ _ _ => False

section Clients
variable [Limits]

theorem Client.store_act_of_loads {c : Client} {a : Action} (h : a.Loads) :
    (c.act a).store = c.store := by
  rcases act_cases c a with ⟨hstore, -⟩ | ⟨s, n, text, rfl, -⟩ | ⟨s, t, xs, text, rfl, -⟩
  · exact hstore
  · exact h.elim
  · exact h.elim

/-- Loading changes nothing that is stored. -/
theorem Client.store_foldl_of_loads {c : Client} {actions : List Action}
    (h : ∀ a ∈ actions, a.Loads) : (actions.foldl act c).store = c.store := by
  induction actions generalizing c with
  | nil => rfl
  | cons a actions ih =>
    obtain ⟨ha, hactions⟩ := List.forall_mem_cons.mp h
    rw [List.foldl_cons, ih hactions, store_act_of_loads ha]

/-- **What is loaded and what is refused**, whatever the texts of a store are, as long as none of
them nests deeper than what can be read. Progress is fresh where nothing is stored; else it is what
the text describes, and is loaded exactly if the text holds an object in which the member for the
steps, if there is one, is an object of objects whose status, if there is one, is one of the three.
A history is the list that the text holds. All else is refused with the text and with what is wrong
with it, and clients that only load leave the store as it is. -/
theorem loaded_iff {st : ProgressStore} (h : st.Shallow) :
    (∀ s, st.LoadsProgress s) ∧ (∀ s t, st.LoadsHistory s t) ∧
    ∀ (c : Client) (actions : List Action), c.store = st → (∀ a ∈ actions, a.Loads) →
      (actions.foldl Client.act c).store = st := by
  refine ⟨h.loadsProgress, h.loadsHistory, fun c actions hstore hloads => ?_⟩
  rw [Client.store_foldl_of_loads hloads, hstore]

end Clients

attribute [local instance] Limits.thousandFrames

/-- A text that holds progress but for the status of a step. -/
def unfitText : String := "\x7b\"step_states\": \x7b\"0\": \x7b\"status\": \"Done\"\x7d\x7d\x7d"

/-- A store with the progress of two sessions and the histories of a step in them. -/
def mixed : ProgressStore where
  records := [(progressKey "a", "\x7b\x7d"), (progressKey "b", unfitText),
    (historyKey "a" "t", "[1]"), (historyKey "b" "t", "\x7b\x7d")]

theorem madeOf_single {leaf : Scalar → Prop} (name : String) {v : Value} (hv : v.MadeOf leaf) :
    (Value.dict [(.text name, v)]).MadeOf leaf := by
  refine .dict (by simp [Entries.Distinct, Entries.keys]) ?_ ?_
  · simp [Progress.isName_ofString]
  · simpa using hv

/-- The value that this text holds. -/
def unfit : Value :=
  .dict [(.text "step_states", .dict [(.text "0", .dict [(.text "status", .text "Done")])])]

theorem read_unfitText : Json.read unfitText = .ok unfit := by
  have hdone : (Value.text "Done").MadeOf Scalar.FloatFree := .scalar (Text.joined_ofChars _)
  have hwrite : Json.write true unfit = .ok unfitText := by cbv
  exact Json.read_of_write
    (madeOf_single "step_states" (madeOf_single "0" (madeOf_single "status" hdone))) hwrite

theorem not_describes_unfit : ¬ Progress.Describes unfit := by
  rintro ⟨es, hes, hsteps⟩
  cases hes
  obtain ⟨ms, hms, hall⟩ := hsteps _ rfl
  cases hms
  obtain ⟨fs, hfs, hstatus⟩ := hall _ (List.mem_singleton_self _)
  cases hfs
  obtain ⟨t, ht⟩ := hstatus _ rfl
  have hspelling : "Done" = t.spelling := by
    injection ht with hscalar
    injection hscalar with htext
    exact Text.ofString_inj.mp htext
  cases t with
  | notStarted => exact absurd hspelling (by decide)
  | inProgress => exact absurd hspelling (by decide)
  | completed => exact absurd hspelling (by decide)

theorem loaded_iff_mixed : mixed.Shallow ∧ (∃ p, mixed.progress "a" = .ok p) ∧
    (¬ ∃ p, mixed.progress "b" = .ok p) ∧ mixed.progress "c" = .ok {} ∧
    mixed.history "a" "t" = .ok (some [.int 1]) ∧
    (∀ xs, mixed.history "b" "t" ≠ .ok (some xs)) ∧ mixed.history "c" "t" = .ok none ∧
    ([.loadProgress "b" 0, .loadHistory "a" "t"].foldl Client.act { store := mixed }).store =
      mixed := by
  have hmixed : mixed.Shallow := shallow_of_forall (by decide)
  obtain ⟨hprogress, hhistory, hclient⟩ := loaded_iff hmixed
  have hempty : Json.read "\x7b\x7d" = .ok (.dict []) := rfl
  have hlist : Json.read "[1]" = .ok (.list [.int 1]) := rfl
  refine ⟨hmixed, ?_, ?_, ?_, ?_, ?_, ?_, ?_⟩
  · have htext : mixed.text? (progressKey "a") = some "\x7b\x7d" := by decide
    exact ((hprogress "a").accepted _ htext (by decide)).mpr ⟨_, hempty, [], rfl, nofun⟩
  · have htext : mixed.text? (progressKey "b") = some unfitText := by decide
    intro hloaded
    obtain ⟨v, hv, hdescribes⟩ := ((hprogress "b").accepted _ htext (by decide)).mp hloaded
    rw [read_unfitText] at hv
    cases hv
    exact not_describes_unfit hdescribes
  · have htext : mixed.text? (progressKey "c") = none := by decide
    exact (hprogress "c").unstored (Or.inl htext)
  · have htext : mixed.text? (historyKey "a" "t") = some "[1]" := by decide
    exact ((hhistory "a" "t").loaded _ htext (by decide) _).mpr hlist
  · have htext : mixed.text? (historyKey "b" "t") = some "\x7b\x7d" := by decide
    intro xs hloaded
    have hread := ((hhistory "b" "t").loaded _ htext (by decide) xs).mp hloaded
    rw [hempty] at hread
    cases hread
  · have htext : mixed.text? (historyKey "c" "t") = none := by decide
    exact (hhistory "c" "t").unstored.mpr (Or.inl htext)
  · refine hclient { store := mixed } _ rfl ?_
    simp [Action.Loads]

end ProgressStore

end Stepwise
