import Stepwise.Flow.Document
import Stepwise.Proofs.Distinct
import Stepwise.Proofs.Outcome
import Stepwise.Proofs.Value.Json

/-!
# What stands under the keys of a document

A key of a mapping may be missing, and what stands under it may be null. A relation for each kind of
key tells which values may stand under it and what they mean, `none` being a key that is missing;
the reader of that kind of key gives exactly what the relation tells.
-/

namespace Stepwise.Document

open Value

/-- A text, where a missing key and a null value stand for something of their own. -/
inductive ReadsText (missing null : Option Text) : Option Value → Option Text → Prop
  | missing : ReadsText missing null none missing
  | null : ReadsText missing null (some .null) null
  | text (t : Text) : ReadsText missing null (some (.text t)) (some t)

/-- A list of names without repetition; one text is a list as well. -/
inductive ReadsNames : Option Value → Option (List Scalar) → Prop
  | missing : ReadsNames none none
  | null : ReadsNames (some .null) none
  | text (t : Text) : ReadsNames (some (.text t)) (some [.text t])
  | list (ts : List Text) :
      ReadsNames (some (.list (ts.map .text))) (some (ts.map Scalar.text).eraseDups)

/-- Names of variables, where an empty text is no name. -/
inductive ReadsVariables : Option Value → List Scalar → Prop
  | empty : ReadsVariables (some (.text [])) []
  | names {v : Option Value} {ns : Option (List Scalar)} (nonempty : v ≠ some (.text []))
      (names : ReadsNames v ns) : ReadsVariables v (ns.getD [])

/-- A policy by its spelling. -/
inductive ReadsCompletion : Option Value → Completion → Prop
  | missing : ReadsCompletion none .once
  | null : ReadsCompletion (some .null) .once
  | spelling (c : Completion) : ReadsCompletion (some (.text c.spelling)) c

/-- The flow that a step stands for: a key that is there makes it a reference, also with null. -/
inductive ReadsKind : Option Value → Step.Kind → Prop
  | missing : ReadsKind none .plain
  | null : ReadsKind (some .null) (.reference (some []))
  | text (t : Text) : ReadsKind (some (.text t)) (.reference (some t))

/-- What counts as no steps: null, false, a zero, an empty text or an empty mapping. -/
inductive Hollow : Value → Prop
  | null : Hollow .null
  | false : Hollow (.bool false)
  | int : Hollow (.int 0)
  | float {x : Float} (zero : Scalar.isZero x = true) : Hollow (.float x)
  | text : Hollow (.text [])
  | dict : Hollow (.dict [])

/-- The steps of a flow. -/
inductive ReadsSteps : Option Value → List Value → Prop
  | missing : ReadsSteps none []
  | hollow {v : Value} (h : Hollow v) : ReadsSteps (some v) []
  | list (xs : List Value) : ReadsSteps (some (.list xs)) xs

/-- What stands for a policy is a text, or null, and these are shown. -/
theorem ReadsCompletion.shown {v : Value} {c : Completion} (h : ReadsCompletion (some v) c)
    {room : Nat} (hroom : 0 < room) : Shown room v := by
  obtain ⟨room, rfl⟩ := Nat.exists_eq_add_one.mpr hroom
  rcases h with _ | _ | _ <;> exact .scalar fun i h => by cases h

/-! ### Values of JSON texts -/

theorem text?_eq_some_iff {v : Value} (hv : v.IsJson) {t : Text} :
    v.text? = some t ↔ v = .text t := by
  constructor
  · intro ht
    rcases hv with @⟨s, -⟩ | - | -
    · rcases s with _ | _ | _ | _ | _ | _ | _ | _ <;> cases ht
      rfl
    all_goals cases ht
  · rintro rfl
    rfl

theorem isText_iff {v : Value} (hv : v.IsJson) : isText v = true ↔ ∃ t, v = .text t := by
  simp only [isText, Option.isSome_iff_exists, text?_eq_some_iff hv]

theorem isNull_iff {v : Value} : v.isNull = true ↔ v = .null := by
  constructor
  · intro h
    unfold isNull at h
    split at h
    · rfl
    · cases h
  · rintro rfl
    rfl

theorem all_isText_iff {xs : List Value} (hxs : ∀ x ∈ xs, x.IsJson) :
    xs.all isText = true ↔ ∃ ts : List Text, xs = ts.map .text := by
  induction xs with
  | nil => exact iff_of_true rfl ⟨[], rfl⟩
  | cons x xs ih =>
    obtain ⟨hx, hxs⟩ := List.forall_mem_cons.mp hxs
    rw [List.all_cons, Bool.and_eq_true, isText_iff hx, ih hxs]
    constructor
    · rintro ⟨⟨t, rfl⟩, ts, rfl⟩
      exact ⟨t :: ts, rfl⟩
    · rintro ⟨_ | ⟨t, ts⟩, h⟩
      · cases h
      · obtain ⟨rfl, rfl⟩ := List.cons.inj h
        exact ⟨⟨t, rfl⟩, ts, rfl⟩

theorem isTruthy_iff {v : Value} (hv : v.IsJson) (hlist : ∀ xs, v ≠ .list xs) :
    v.isTruthy = false ↔ Hollow v := by
  constructor
  · intro h
    rcases hv with @⟨s, hs⟩ | @⟨xs, -⟩ | @⟨es, -, -⟩
    · rcases s with _ | b | i | x | t | _ | _ | _
      · exact .null
      · simp only [isTruthy, Scalar.isTruthy] at h
        exact h ▸ .false
      · have hi : i = 0 := by simpa [isTruthy, Scalar.isTruthy] using h
        exact hi ▸ .int
      · have hx : Scalar.isZero x = true := by simpa [isTruthy, Scalar.isTruthy] using h
        exact .float hx
      · have ht : t = [] := by simpa [isTruthy, Scalar.isTruthy] using h
        exact ht ▸ .text
      all_goals exact absurd hs id
    · exact absurd rfl (hlist xs)
    · have hes : es = [] := by simpa [isTruthy] using h
      exact hes ▸ .dict
  · intro h
    rcases h with _ | _ | _ | ⟨zero⟩ | _ | _
    · rfl
    · rfl
    · rfl
    · simp [isTruthy, Scalar.isTruthy, zero]
    · rfl
    · rfl

/-! ### The readers -/

section Readers
variable {es : Entries Scalar Value} (hes : (dict es).IsJson) {key : String} {place : Text}
include hes

theorem textField_eq_ok_iff {default t : Option Text} :
    textField es key place default = .ok t ↔ ReadsText default none (field? es key) t := by
  unfold textField
  split
  · next hfield =>
    rw [hfield]
    exact ⟨fun | rfl => .missing, fun | .missing => rfl⟩
  · next hfield =>
    rw [hfield]
    exact ⟨fun | rfl => .null, fun | .null => rfl⟩
  · next v hnull hfield =>
    have hv := isJson_of_field? hes hfield
    rw [hfield]
    rcases htext : v.text? with _ | u
    · constructor
      · rintro ⟨⟩
      · rintro (_ | _ | ⟨u⟩)
        · exact absurd rfl hnull
        · cases htext
    · obtain rfl := (text?_eq_some_iff hv).mp htext
      exact ⟨fun | rfl => .text u, fun | .text _ => rfl⟩

theorem namesField_eq_ok_iff {v : Value} : namesField es key place = .ok v ↔
    v = (field? es key).getD .null ∧ ∃ ns, ReadsNames (field? es key) ns := by
  unfold namesField
  split
  · next hfield =>
    rw [hfield]
    exact ⟨fun | rfl => ⟨rfl, none, .missing⟩, fun h => congrArg Except.ok h.1.symm⟩
  · next xs hfield =>
    have hxs : ∀ x ∈ xs, x.IsJson := by
      rcases isJson_of_field? hes hfield with - | hxs | -
      exact hxs
    rw [hfield]
    split
    · next hall =>
      obtain ⟨ts, rfl⟩ := (all_isText_iff hxs).mp hall
      exact ⟨fun | rfl => ⟨rfl, _, .list ts⟩, fun h => congrArg Except.ok h.1.symm⟩
    · next hall =>
      refine iff_of_false (fun h => by cases h) ?_
      rintro ⟨-, ns, hns⟩
      rcases hns with _ | _ | _ | ts
      exact hall ((all_isText_iff hxs).mpr ⟨ts, rfl⟩)
  · next v' hlist hfield =>
    have hv := isJson_of_field? hes hfield
    have hreads : (v'.isNull || isText v') = true ↔ ∃ ns, ReadsNames (some v') ns := by
      rw [Bool.or_eq_true, isNull_iff, isText_iff hv]
      constructor
      · rintro (rfl | ⟨t, rfl⟩)
        · exact ⟨none, .null⟩
        · exact ⟨_, .text t⟩
      · rintro ⟨ns, _ | _ | t | ts⟩
        · exact Or.inl rfl
        · exact Or.inr ⟨t, rfl⟩
        · exact absurd rfl (hlist _)
    rw [hfield]
    split
    · next h => exact ⟨fun | rfl => ⟨rfl, hreads.mp h⟩, fun h => congrArg Except.ok h.1.symm⟩
    · next h => exact iff_of_false (fun h => by cases h) fun ⟨_, hns⟩ => h (hreads.mpr hns)

theorem kindField_eq_ok_iff {kind : Step.Kind} :
    kindField es place = .ok kind ↔ ReadsKind (field? es "flowName") kind := by
  unfold kindField
  split
  · next hsome =>
    simp only [bind_eq_ok_iff, textField_eq_ok_iff hes]
    constructor
    · rintro ⟨t, ht, ⟨⟩⟩
      rcases hfield : field? es "flowName" with _ | v
      · rw [hfield] at hsome
        cases hsome
      · rw [hfield] at ht
        rcases ht with _ | _ | t
        · exact .null
        · exact .text t
    · intro h
      rcases hfield : field? es "flowName" with _ | v
      · rw [hfield] at hsome
        cases hsome
      · rw [hfield] at h
        rcases h with _ | _ | t
        · exact ⟨none, .null, rfl⟩
        · exact ⟨some t, .text t, rfl⟩
  · next hnone =>
    rw [Option.not_isSome_iff_eq_none] at hnone
    rw [hnone]
    exact ⟨fun | rfl => .missing, fun | .missing => rfl⟩

theorem stepsField_eq_ok_iff {items : List Value} :
    stepsField es = .ok items ↔ ReadsSteps (field? es "steps") items := by
  unfold stepsField
  split
  · next hfield =>
    rw [hfield]
    exact ⟨fun | rfl => .missing, fun | .missing => rfl⟩
  · next v hfield =>
    have hv := isJson_of_field? hes hfield
    rw [hfield]
    by_cases hlist : ∃ xs, v = .list xs
    · obtain ⟨xs, rfl⟩ := hlist
      have hlisted : ReadsSteps (some (.list xs)) items ↔ xs = items := by
        constructor
        · rintro (_ | ⟨⟨⟩⟩ | _)
          rfl
        · rintro rfl
          exact .list xs
      rw [hlisted]
      rcases xs with _ | ⟨x, xs⟩ <;> exact ⟨Except.ok.inj, congrArg Except.ok⟩
    · rw [not_exists] at hlist
      have hhollow := isTruthy_iff hv hlist
      split
      · next htrue =>
        split
        · next xs => exact absurd rfl (hlist xs)
        · refine iff_of_false (fun h => by cases h) ?_
          rintro (_ | hv | xs)
          · rw [hhollow.mpr hv] at htrue
            cases htrue
          · exact hlist _ rfl
      · next hfalse =>
        rw [Bool.not_eq_true] at hfalse
        constructor
        · rintro ⟨⟩
          exact .hollow (hhollow.mp hfalse)
        · rintro (_ | _ | xs)
          · rfl
          · exact absurd rfl (hlist _)

/-! ### Policies -/

section Completion
variable [Limits]

omit hes in
theorem completionOf_eq_ok_iff {v : Value} (hv : v.IsJson) {c : Completion} :
    Step.completionOf v = .ok c ↔ v = .text c.spelling := by
  have hread : v.string?.bind Completion.ofSpelling? = some c ↔ v = .text c.spelling := by
    simp only [Option.bind_eq_some_iff, string?, text?_eq_some_iff hv, Text.string?_eq_some_iff]
    constructor
    · rintro ⟨s, ⟨t, rfl, rfl⟩, hs⟩
      rw [Completion.spelling_of_ofSpelling? hs]
    · rintro rfl
      exact ⟨c.spelling, ⟨_, rfl, rfl⟩, Completion.ofSpelling?_spelling c⟩
  unfold Step.completionOf
  rw [← hread]
  split
  · next c' hc' => rw [hc', Option.some.injEq, Except.ok.injEq]
  · next hnone =>
    rw [hnone]
    split <;> exact iff_of_false (fun h => by cases h) fun h => by cases h

theorem completionField_eq_ok_iff {goal : Text} {c : Completion} :
    completionField es goal = .ok c ↔ ReadsCompletion (field? es "completionType") c := by
  unfold completionField
  split
  · next hfield =>
    rw [hfield]
    exact ⟨fun | rfl => .missing, fun | .missing => rfl⟩
  · next hfield =>
    rw [hfield]
    exact ⟨fun | rfl => .null, fun | .null => rfl⟩
  · next v hnull hfield =>
    have hv := isJson_of_field? hes hfield
    rw [mapError_eq_ok_iff, completionOf_eq_ok_iff hv, hfield]
    constructor
    · rintro rfl
      exact .spelling c
    · rintro (_ | _ | _)
      · exact absurd rfl hnull
      · rfl

end Completion

end Readers

end Stepwise.Document
