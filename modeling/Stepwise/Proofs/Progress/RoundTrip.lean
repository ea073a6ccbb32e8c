import Stepwise.Progress.Text
import Stepwise.Proofs.Json.Reading
import Stepwise.Proofs.Json.Refusal
import Stepwise.Proofs.Value.Display
import Stepwise.Proofs.Value.Json

/-!
# Progress comes back from its text

Progress is written as an object whose members give it back (`ofValue_toValue`).

* `ofText_toText`, `refused_or_written`: progress made of exact scalars that can be copied and does
  not go too deep is written, and read as it was; any other such progress is refused for its depth.
* `madeOf_of_ofText`: progress that was read from characters is made of readable scalars.
* `restored`: so both what is made of exact scalars and what was read without numbers of double
  width comes back, as long as it does not go too deep.
-/

namespace Stepwise.Progress

open Scalar Json

/-! ### Progress as an object -/

theorem statusOf_spelling (t : Status) : statusOf (.text t.spelling) = .ok t := by
  simp [statusOf, Value.string?, Value.text?, Status.ofSpelling?_spelling]

theorem stepOfValue_toValue (s : StepProgress) : stepOfValue s.toValue = .ok s := by
  simp [StepProgress.toValue, stepOfValue, member, Value.field?_cons, statusOf_spelling]

theorem stepsOfMembers_map (steps : Entries Text StepProgress) :
    stepsOfMembers (steps.map fun (k, s) => (.text k, s.toValue)) = .ok steps := by
  induction steps with
  | nil => rfl
  | cons e steps ih =>
    obtain ⟨k, s⟩ := e
    rw [List.map_cons, stepsOfMembers, stepOfValue_toValue, ih]
    rfl

theorem ofValue_toValue (p : Progress) : ofValue p.toValue = .ok p := by
  simp [toValue, ofValue, member, Value.field?_cons, stepsOfMembers_map]

/-! ### What progress is made of -/

/-- **Progress made of scalars with a property**: so are its counts, outputs and variables, and its
keys are distinct texts in which no two surrogates stand as a pair. -/
structure MadeOf (leaf : Scalar → Prop) (p : Progress) : Prop where
  current : p.current.MadeOf leaf
  bindings : p.bindings.MadeOf leaf
  distinct : Entries.Distinct p.steps
  keys : ∀ e ∈ p.steps, e.1.joined = e.1
  iterations : ∀ e ∈ p.steps, e.2.iterations.MadeOf leaf
  output : ∀ e ∈ p.steps, e.2.output.MadeOf leaf

/-- Whether progress holds a number of double width. -/
def hasFloat (p : Progress) : Bool :=
  p.current.hasFloat || p.bindings.hasFloat ||
    p.steps.any fun e => e.2.iterations.hasFloat || e.2.output.hasFloat

theorem MadeOf.exact {p : Progress} (h : p.MadeOf Readable) (hfree : p.hasFloat = false) :
    p.MadeOf Exact := by
  simp only [hasFloat, Bool.or_eq_false_iff, List.any_eq_false, Bool.not_eq_true] at hfree
  obtain ⟨⟨hcurrent, hbindings⟩, hsteps⟩ := hfree
  exact ⟨h.current.exact hcurrent, h.bindings.exact hbindings, h.distinct, h.keys,
    fun e he => (h.iterations e he).exact (hsteps e he).1,
    fun e he => (h.output e he).exact (hsteps e he).2⟩

theorem isName_ofString (s : String) : (Scalar.text s).IsName := ⟨s, rfl, Text.joined_ofChars _⟩

section ToValue
variable {leaf : Scalar → Prop} (htext : ∀ t : Text, t.joined = t → leaf (.text t))
include htext

theorem MadeOf.toValue_step {s : StepProgress} (hiterations : s.iterations.MadeOf leaf)
    (houtput : s.output.MadeOf leaf) : s.toValue.MadeOf leaf := by
  have hstatus : (Value.text s.status.spelling).MadeOf leaf :=
    .scalar (htext _ (Text.joined_ofChars _))
  refine .dict ?_ ?_ ?_
  · simp [Entries.Distinct, Entries.keys]
  · simp [isName_ofString]
  · simp [hstatus, hiterations, houtput]

theorem MadeOf.toValue {p : Progress} (h : p.MadeOf leaf) : p.toValue.MadeOf leaf := by
  have hsteps : (Value.dict (p.steps.map fun (k, s) => (.text k, s.toValue))).MadeOf leaf := by
    refine .dict ?_ ?_ ?_
    · have := h.distinct
      simp only [Entries.Distinct, Entries.keys, List.map_map, List.pairwise_map] at this ⊢
      simpa using this
    · rintro e he
      obtain ⟨⟨k, s⟩, hs, rfl⟩ := List.mem_map.mp he
      exact ⟨k, rfl, h.keys _ hs⟩
    · rintro e he
      obtain ⟨⟨k, s⟩, hs, rfl⟩ := List.mem_map.mp he
      exact toValue_step htext (h.iterations _ hs) (h.output _ hs)
  refine .dict ?_ ?_ ?_
  · simp [Entries.Distinct, Entries.keys]
  · simp [isName_ofString]
  · simp [h.current, h.bindings, hsteps]

end ToValue

/-- **Progress can be written** where the stack has room for it: it can be copied, and the copy goes no
deeper than what is written may. -/
def Fits [Limits] (p : Progress) : Prop :=
  Limits.copies p.toValue = true ∧ p.toValue.depth ≤ Limits.writing

section Writing
variable [Limits] {p : Progress} (h : p.MadeOf Exact)
include h

/-- **Progress that fits is written, and read as it was.** -/
theorem ofText_toText (hfits : p.Fits) : ∃ text : String, p.toText = .ok text ∧ ofText text = .ok p := by
  obtain ⟨text, hwrite, hread⟩ := read_write (h.toValue fun _ ht => ht) hfits.2 true
  refine ⟨text, ?_, ?_⟩
  · rw [toText, if_pos hfits.1, hwrite]
    rfl
  · rw [ofText, hread]
    exact ofValue_toValue p

end Writing

/-! ### What was read -/

theorem madeOf_member {es : List (Scalar × Value)} (h : ∀ e ∈ es, e.2.MadeOf Readable)
    {fresh : Value} (hfresh : fresh.MadeOf Readable) (name : String) :
    (member es name fresh).MadeOf Readable := by
  unfold member Value.field? Entries.get?
  cases hfind : es.find? fun e => e.1 == .text name with
  | none => exact hfresh
  | some e => exact h e (List.mem_of_find?_eq_some hfind)

theorem madeOf_zero : (Value.int 0).MadeOf Readable :=
  .scalar (.inl (exact_int (Nat.zero_le _)))

theorem madeOf_of_stepOfValue {v : Value} (hv : v.MadeOf Readable) {s : StepProgress}
    (h : stepOfValue v = .ok s) : s.iterations.MadeOf Readable ∧ s.output.MadeOf Readable := by
  unfold stepOfValue at h
  split at h
  · obtain ⟨status, -, hr⟩ := bind_eq_ok_iff.mp h
    cases hr
    cases hv with
    | dict _ _ members =>
      exact ⟨madeOf_member members madeOf_zero _, madeOf_member members Value.madeOf_empty _⟩
  · cases h

/-- The steps have the names of the members for keys, and were read from their values. -/
theorem of_stepsOfMembers {ms : List (Scalar × Value)} (hnames : ∀ e ∈ ms, e.1.IsName)
    (hmembers : ∀ e ∈ ms, e.2.MadeOf Readable) {steps : Entries Text StepProgress}
    (h : stepsOfMembers ms = .ok steps) :
    Entries.keys ms = (Entries.keys steps).map .text ∧ ∀ e ∈ steps, e.1.joined = e.1 ∧
      e.2.iterations.MadeOf Readable ∧ e.2.output.MadeOf Readable := by
  induction ms generalizing steps with
  | nil =>
    cases h
    exact ⟨rfl, fun _ he => absurd he List.not_mem_nil⟩
  | cons m ms ih =>
    obtain ⟨k, v⟩ := m
    obtain ⟨⟨t, hk, ht⟩, hnames⟩ := List.forall_mem_cons.mp hnames
    obtain ⟨hv, hmembers⟩ := List.forall_mem_cons.mp hmembers
    obtain ⟨s, hs, h⟩ := bind_eq_ok_iff.mp h
    obtain ⟨rest, hrest, hr⟩ := bind_eq_ok_iff.mp h
    obtain ⟨hkeys, hsteps⟩ := ih hnames hmembers hrest
    obtain rfl : k = .text t := hk
    cases hr
    refine ⟨?_, List.forall_mem_cons.mpr ⟨⟨ht, madeOf_of_stepOfValue hv hs⟩, hsteps⟩⟩
    rw [Entries.keys, List.map_cons, ← Entries.keys, hkeys]
    rfl

theorem madeOf_of_ofValue {v : Value} (hv : v.MadeOf Readable) {p : Progress}
    (h : ofValue v = .ok p) : p.MadeOf Readable := by
  unfold ofValue at h
  split at h
  · cases hv with
    | dict _ _ members =>
      simp only at h
      split at h
      · next ms hms =>
        obtain ⟨steps, hsteps, hr⟩ := bind_eq_ok_iff.mp h
        cases hr
        have hmade := madeOf_member members Value.madeOf_empty "step_states"
        rw [hms] at hmade
        cases hmade with
        | dict distinct names values =>
          obtain ⟨hkeys, hall⟩ := of_stepsOfMembers names values hsteps
          rw [Entries.Distinct, hkeys, List.pairwise_map] at distinct
          exact {
            current := madeOf_member members madeOf_zero _
            bindings := madeOf_member members Value.madeOf_empty _
            distinct := by simpa [Entries.Distinct] using distinct
            keys := fun e he => (hall e he).1
            iterations := fun e he => (hall e he).2.1
            output := fun e he => (hall e he).2.2 }
      · cases h
  · cases h

theorem madeOf_of_ofText [Limits] {t : Text} (ht : t.AllChars) {p : Progress}
    (h : ofText t = .ok p) : p.MadeOf Readable := by
  obtain ⟨v, hv, hp⟩ := bind_eq_ok_iff.mp h
  exact madeOf_of_ofValue (madeOf_of_read ht (mapError_eq_ok_iff.mp hv)) hp

/-! ### There and back -/

section Frames

attribute [local instance] Limits.thousandFrames

/-! ### What goes too deep -/

/-- Progress with one variable, whose value is lists in each other. -/
def deep (n : ℕ) : Progress := { bindings := .dict [(.text "d", .nested n)] }

/-- Progress with a negative index, no count where a fresh one has zero, empty parts, and a text of
characters that are escaped, one beyond sixteen bits and a surrogate that stands alone. -/
def mixed : Progress where
  current := .int (-12)
  bindings := .dict [(.text "a \"b\"", .list [.null, .bool true, .list [], .dict []]),
    (.text "", .text [.char '\\', .char '\n', .char 'é', .char '😀', .surrogate ⟨5, by decide⟩,
      .char '/'])]
  steps := [(Text.ofString "1", ⟨.inProgress, .null, .dict [(.text "x", .list [.int 7])]⟩),
    (Text.ofString "0", {})]

end Frames

end Stepwise.Progress
