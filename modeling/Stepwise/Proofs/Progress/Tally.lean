import Mathlib.Data.List.Induction
import Std.Data.String.ToInt
import Stepwise.Proofs.Progress.Recording

/-!
# Runs of many steps

Runs of steps are recorded one after the other, those of each step between those of others. What is
then known of a step is told by its own runs. A step whose index has too many digits to be written
has no key, and none of its runs is recorded.

* `tally`: the values under each name that some runs put out, which a recording continues
  (`appendAll_tally`, `record_tallied`).
* `recordRun_tallied`, `recordRun_of_long`, `recordRuns_eq`: the progress behind one run more, and
  behind all of them.
* `runs_tallied`: so the progress of a step is told by the row of its own runs.
* `not_tallied`: a step whose index is too long is not recorded, and a truth value is the index of
  another step than the number that it equals.
-/

namespace Stepwise

open Scalar

namespace StepProgress

/-! ### The runs of one step -/

/-- The values that were given for a name, in order. -/
def given (name : Text) (entries : List (Text × Value)) : List Value :=
  (entries.filter fun e => e.1 == name).map Prod.snd

/-- **What is known of some names and values**: the names in the order in which they first came, each
with the values that were given for it. -/
def tally (entries : List (Text × Value)) : Entries Scalar Value :=
  (entries.map Prod.fst).eraseDups.map fun name => (.text name, .list (given name entries))

theorem text_beq_iff (s t : Text) : ((Scalar.text s == .text t) = true) ↔ s = t := by
  rw [text_beq_text, beq_iff_eq]

theorem get?_tally (entries : List (Text × Value)) (name : Text) :
    Entries.get? (.text name) (tally entries) =
      if name ∈ entries.map Prod.fst then some (.list (given name entries)) else none := by
  unfold tally
  rw [Entries.get?_map text_beq_iff fun name => Value.list (given name entries)]
  exact if_congr List.mem_eraseDups rfl rfl

theorem given_concat (name : Text) (entries : List (Text × Value)) (e : Text × Value) :
    given name (entries ++ [e]) =
      if e.1 = name then given name entries ++ [e.2] else given name entries := by
  unfold given
  rw [List.filter_append, List.map_append]
  by_cases h : e.1 = name
  · simp [h]
  · simp [h]

theorem given_eq_nil {name : Text} {entries : List (Text × Value)}
    (h : name ∉ entries.map Prod.fst) : given name entries = [] := by
  have hnone : entries.filter (fun e => e.1 == name) = [] := by
    refine List.filter_eq_nil_iff.mpr fun e he hname => h ?_
    rw [← beq_iff_eq.mp hname]
    exact List.mem_map_of_mem he
  rw [given, hnone, List.map_nil]

theorem appendOutput_tally (entries : List (Text × Value)) (name : Text) (v : Value) :
    appendOutput (.dict (tally entries)) (.text name) v =
      .ok (.dict (tally (entries ++ [(name, v)]))) := by
  have hown : given name (entries ++ [(name, v)]) = given name entries ++ [v] := by
    rw [given_concat, if_pos rfl]
  have hinsert : Entries.insert (.text name) (.list (given name entries ++ [v])) (tally entries) =
      tally (entries ++ [(name, v)]) := by
    unfold tally
    rw [List.map_append, List.map_singleton, ← hown]
    refine Entries.insert_map_eraseDups text_beq_iff
      (fun other => Value.list (given other (entries ++ [(name, v)]))) (fun other hne => ?_) _
    rw [given_concat, if_neg fun h => hne h.symm]
  rw [appendOutput, get?_tally]
  by_cases hname : name ∈ entries.map Prod.fst
  · rw [if_pos hname]
    show Except.ok (Value.dict (Entries.insert _ _ _)) = _
    rw [hinsert]
  · rw [if_neg hname]
    rw [given_eq_nil hname, List.nil_append] at hinsert
    show Except.ok (Value.dict (Entries.insert _ _ _)) = _
    rw [hinsert]

theorem appendAll_tally (s : StepProgress) (entries more : List (Text × Value))
    (h : s.output = .dict (tally entries)) :
    s.appendAll (more.map fun (n, v) => (.text n, v)) =
      ({ s with output := .dict (tally (entries ++ more)) }, .ok ()) := by
  induction more generalizing s entries with
  | nil =>
    rw [List.append_nil, ← h]
    rfl
  | cons e more ih =>
    obtain ⟨name, v⟩ := e
    have hsplit : entries ++ (name, v) :: more = (entries ++ [(name, v)]) ++ more := by simp
    rw [List.map_cons, appendAll, h, appendOutput_tally, hsplit]
    exact ih _ _ rfl

/-- **A recording continues a tally.** -/
theorem record_tallied {s : StepProgress} {n : ℤ} {entries : List (Text × Value)}
    (hcount : s.iterations = .int n) (houtput : s.output = .dict (tally entries)) (r : RunOutput) :
    s.record r.toValue =
      (⟨.inProgress, .int (n + 1), .dict (tally (entries ++ r.entries))⟩, .ok ()) := by
  have hsucc : s.iterations.succ = .ok (.int (n + 1)) := by
    rw [hcount]
    rfl
  rw [record_of_number hsucc]
  exact appendAll_tally { s with iterations := .int (n + 1), status := .inProgress } entries
    r.entries houtput

end StepProgress

open StepProgress

/-- **A run of a step** and what it puts out. -/
structure Run where
  index : ℤ
  output : RunOutput

namespace Run

/-- The runs of a step. -/
def ofIndex (i : ℤ) (runs : List Run) : List Run := runs.filter fun r => r.index = i

theorem ofIndex_concat (i : ℤ) (runs : List Run) (r : Run) :
    ofIndex i (runs ++ [r]) = if r.index = i then ofIndex i runs ++ [r] else ofIndex i runs := by
  unfold ofIndex
  rw [List.filter_append]
  by_cases h : r.index = i
  · simp [h]
  · simp [h]

theorem ofIndex_ofIndex (i : ℤ) (runs : List Run) : ofIndex i (ofIndex i runs) = ofIndex i runs := by
  unfold ofIndex
  rw [List.filter_filter]
  simp only [Bool.and_self]

/-- The runs of the steps whose index is short enough to be written. -/
def keyed (runs : List Run) : List Run := runs.filter fun r => !Decimal.isTooLong r.index

theorem keyed_concat (runs : List Run) (r : Run) : keyed (runs ++ [r]) =
    if Decimal.isTooLong r.index then keyed runs else keyed runs ++ [r] := by
  unfold keyed
  rw [List.filter_append]
  cases h : Decimal.isTooLong r.index <;> simp [h]

theorem ofIndex_keyed {i : ℤ} (hi : Decimal.isTooLong i = false) (runs : List Run) :
    ofIndex i (keyed runs) = ofIndex i runs := by
  unfold ofIndex keyed
  rw [List.filter_filter]
  refine List.filter_congr fun r _ => ?_
  by_cases h : r.index = i
  · simp [h, hi]
  · simp [h]

theorem keyed_ofIndex {i : ℤ} (hi : Decimal.isTooLong i = false) (runs : List Run) :
    keyed (ofIndex i runs) = ofIndex i runs := by
  refine List.filter_eq_self.mpr fun r hr => ?_
  have hr : r.index = i := by simpa using (List.mem_filter.mp hr).2
  rw [hr, hi]
  rfl

theorem ofIndex_eq_nil {i : ℤ} {runs : List Run} :
    ofIndex i runs = [] ↔ i ∉ runs.map Run.index := by
  unfold ofIndex
  rw [List.filter_eq_nil_iff]
  simp

/-- What some runs put out, one after the other. -/
def entriesOf (runs : List Run) : List (Text × Value) := runs.flatMap fun r => r.output.entries

theorem entriesOf_concat (runs : List Run) (r : Run) :
    entriesOf (runs ++ [r]) = entriesOf runs ++ r.output.entries := by
  simp [entriesOf]

/-- The names under which some runs put something out. -/
def names (runs : List Run) : List Text := runs.flatMap fun r => r.output.entries.keys

theorem map_entriesOf (runs : List Run) : (entriesOf runs).map Prod.fst = names runs := by
  unfold entriesOf names
  rw [List.map_flatMap]
  rfl

/-- The values that some runs put out under a name. -/
def values (name : Text) (runs : List Run) : List Value :=
  runs.filterMap fun r => r.output.entries.get? name

theorem given_entries (r : RunOutput) (name : Text) :
    given name r.entries = (r.entries.get? name).toList := by
  obtain ⟨entries, hdistinct⟩ := r
  induction entries with
  | nil => rfl
  | cons e entries ih =>
    obtain ⟨other, v⟩ := e
    obtain ⟨hnew, hdistinct⟩ := List.pairwise_cons.mp hdistinct
    show given name ((other, v) :: entries) = (Entries.get? name ((other, v) :: entries)).toList
    rw [Entries.get?_cons]
    by_cases h : other = name
    · subst h
      have hnone : given other entries = [] := given_eq_nil fun hmem => by
        have hne := hnew other hmem
        simp at hne
      have hcons : given other ((other, v) :: entries) = v :: given other entries := by
        simp [given]
      rw [hcons, hnone, if_pos BEq.rfl]
      rfl
    · have hcons : given name ((other, v) :: entries) = given name entries := by
        simp [given, h]
      rw [hcons, if_neg (by simpa using h)]
      exact ih hdistinct

theorem given_entriesOf (name : Text) (runs : List Run) :
    given name (entriesOf runs) = values name runs := by
  induction runs using List.reverseRecOn with
  | nil => rfl
  | append_singleton runs r ih =>
    have hsplit : given name (entriesOf runs ++ r.output.entries) =
        given name (entriesOf runs) ++ given name r.output.entries := by
      unfold given
      rw [List.filter_append, List.map_append]
    rw [entriesOf_concat, hsplit, ih, given_entries]
    unfold values
    rw [List.filterMap_append]
    cases h : r.output.entries.get? name with
    | none => simp [h]
    | some v => simp [h]

end Run

/-! ### The runs of all steps -/

namespace Progress

open Run

/-- The text of an index. -/
def indexKey (i : ℤ) : Text := (Value.int i).plain

theorem indexKey_inj {i j : ℤ} : indexKey i = indexKey j ↔ i = j := by
  have hkey : ∀ i : ℤ, indexKey i = Text.ofString i.repr := fun _ => rfl
  rw [hkey, hkey, Text.ofString_inj, Int.repr_inj]

section Runs
variable [Limits]

/-- **The key of a step** is its index, unless this has too many digits. -/
theorem stepKey_int (i : ℤ) : stepKey (.int i) =
    if Decimal.isTooLong i then .error .longNumber else .ok (indexKey i) := by
  obtain ⟨room, hroom⟩ := Nat.exists_eq_add_one.mpr Limits.showing_pos
  unfold stepKey
  rw [hroom, Value.hindrance?, Value.scalarHindrance?]
  cases Decimal.isTooLong i <;> rfl

/-- Records a run of a step. -/
def recordRun (p : Progress) (r : Run) : Progress × Except RecordError Unit :=
  p.recordAt (.int r.index) r.output.toValue

/-- Fresh progress behind the recordings of some runs, whether they are refused or not. -/
def recordRuns (runs : List Run) : Progress := runs.foldl (fun p r => (p.recordRun r).1) {}

/-- No run of a step is recorded whose index is too long. -/
theorem recordRun_of_long (p : Progress) {r : Run} (h : Decimal.isTooLong r.index = true) :
    p.recordRun r = (p, .error (.noKey .longNumber)) := by
  rw [recordRun, recordAt, stepKey_int, if_pos h]

theorem recordRun_of_short (p : Progress) {r : Run} (h : Decimal.isTooLong r.index = false) :
    p.recordRun r = ((p.record (indexKey r.index) r.output.toValue).1,
      (p.record (indexKey r.index) r.output.toValue).2.mapError .refused) := by
  rw [recordRun, recordAt, stepKey_int, if_neg (by simp [h])]

end Runs

/-- The progress of a step that has run. -/
def stepAfter (runs : List Run) : StepProgress :=
  ⟨.inProgress, .int runs.length, .dict (tally (entriesOf runs))⟩

/-- The progress in which the runs of each step are told. -/
def tallied (runs : List Run) : Progress where
  steps := (runs.map Run.index).eraseDups.map fun i => (indexKey i, stepAfter (ofIndex i runs))

theorem indexKey_beq_iff (i j : ℤ) : (indexKey i == indexKey j) = true ↔ i = j := by
  rw [beq_iff_eq, indexKey_inj]

theorem get?_tallied (runs : List Run) (i : ℤ) :
    (tallied runs).steps.get? (indexKey i) =
      if ofIndex i runs = [] then none else some (stepAfter (ofIndex i runs)) := by
  show Entries.get? _ (List.map _ _) = _
  rw [Entries.get?_map indexKey_beq_iff fun i => stepAfter (ofIndex i runs)]
  have hmem : i ∈ (runs.map Run.index).eraseDups ↔ ¬ ofIndex i runs = [] := by
    rw [List.mem_eraseDups, ofIndex_eq_nil, not_not]
  rw [if_congr hmem rfl rfl, ite_not]

section Tallied
variable [Limits]

/-- **One run more**: only the progress of its step changes, as its own runs tell. -/
theorem recordRun_tallied (runs : List Run) {r : Run} (hr : Decimal.isTooLong r.index = false) :
    (tallied runs).recordRun r = (tallied (runs ++ [r]), .ok ()) := by
  have hown : ofIndex r.index (runs ++ [r]) = ofIndex r.index runs ++ [r] := by
    rw [ofIndex_concat, if_pos rfl]
  have hstep : ((tallied runs).step (indexKey r.index)).iterations =
        .int (ofIndex r.index runs).length ∧
      ((tallied runs).step (indexKey r.index)).output =
        .dict (tally (entriesOf (ofIndex r.index runs))) := by
    rw [step, get?_tallied]
    split
    · next hnil =>
      rw [hnil]
      exact ⟨rfl, rfl⟩
    · exact ⟨rfl, rfl⟩
  have hrecord : ((tallied runs).step (indexKey r.index)).record r.output.toValue =
      (stepAfter (ofIndex r.index (runs ++ [r])), .ok ()) := by
    rw [record_tallied hstep.1 hstep.2, hown, stepAfter, entriesOf_concat, List.length_append]
    rfl
  have hset : (tallied runs).setStep (indexKey r.index)
      (stepAfter (ofIndex r.index (runs ++ [r]))) = tallied (runs ++ [r]) := by
    unfold setStep tallied
    rw [List.map_append, List.map_singleton]
    refine congrArg (fun steps => ({ steps := steps } : Progress)) ?_
    refine Entries.insert_map_eraseDups indexKey_beq_iff
      (fun i => stepAfter (ofIndex i (runs ++ [r]))) (fun i hne => ?_) _
    rw [ofIndex_concat, if_neg fun h => hne h.symm]
  rw [recordRun_of_short _ hr, record_eq hrecord, hset]
  rfl

/-- A row of runs is recorded, but for those that have no key. -/
theorem recordRuns_eq (runs : List Run) : recordRuns runs = tallied (keyed runs) := by
  induction runs using List.reverseRecOn with
  | nil => rfl
  | append_singleton runs r ih =>
    unfold recordRuns at ih ⊢
    rw [List.foldl_append, ih, keyed_concat, List.foldl_cons, List.foldl_nil]
    cases hr : Decimal.isTooLong r.index with
    | true =>
      rw [recordRun_of_long _ hr]
      rfl
    | false =>
      rw [recordRun_tallied _ hr]
      rfl

/-- **The progress of a step is told by its own runs.** Fresh progress takes the recordings of all
runs, whatever they put out, but for those whose index has too many digits, which are refused and
change nothing. The index of the next step and the variables stay as they were, and the keys are
those of the steps whose runs were recorded, in the order of their first runs. The progress of each
such step is the one that its own runs alone give: the number of these runs, and for each name that
they put something out under, in the order in which the names first came, the values that they put
out, which are no more than there were runs. -/
theorem runs_tallied (runs : List Run) :
    (recordRuns runs).current = .int 0 ∧ (recordRuns runs).bindings = .dict [] ∧
    Entries.keys (recordRuns runs).steps =
      ((keyed runs).map Run.index).eraseDups.map indexKey ∧
    (∀ r : Run, Decimal.isTooLong r.index = true →
      (recordRuns runs).recordRun r = (recordRuns runs, .error (.noKey .longNumber))) ∧
    (∀ r : Run, Decimal.isTooLong r.index = false → ((recordRuns runs).recordRun r).2 = .ok ()) ∧
    ∀ i, Decimal.isTooLong i = false →
      (recordRuns runs).steps.get? (indexKey i) =
        (recordRuns (ofIndex i runs)).steps.get? (indexKey i) ∧
      (ofIndex i runs ≠ [] → ∃ s es, (recordRuns runs).steps.get? (indexKey i) = some s ∧
        s.iterations = .int (ofIndex i runs).length ∧ s.output = .dict es ∧
        Entries.keys es = (names (ofIndex i runs)).eraseDups.map .text ∧
        ∀ name ∈ names (ofIndex i runs),
          Entries.get? (.text name) es = some (.list (values name (ofIndex i runs))) ∧
          (values name (ofIndex i runs)).length ≤ (ofIndex i runs).length) := by
  rw [recordRuns_eq]
  refine ⟨rfl, rfl, ?_, fun r hr => recordRun_of_long _ hr, fun r hr => ?_, fun i hi =>
    ⟨?_, fun hne => ?_⟩⟩
  · show List.map _ (List.map _ _) = _
    rw [List.map_map]
    rfl
  · rw [recordRun_tallied _ hr]
  · rw [recordRuns_eq, get?_tallied, get?_tallied, ofIndex_keyed hi, keyed_ofIndex hi,
      ofIndex_ofIndex]
  · refine ⟨stepAfter (ofIndex i runs), tally (entriesOf (ofIndex i runs)), ?_, rfl, rfl, ?_,
      fun name hname => ⟨?_, List.length_filterMap_le _ _⟩⟩
    · rw [get?_tallied, ofIndex_keyed hi, if_neg hne]
    · show List.map _ (List.map _ _) = _
      rw [List.map_map, map_entriesOf]
      rfl
    · rw [get?_tally, map_entriesOf, if_pos hname, given_entriesOf]

end Tallied

section Frames
attribute [local instance] Limits.thousandFrames

/-- The smallest number that is too long. -/
def tooLong : ℤ := Int.ofNat (Nat.pow 10 Decimal.maxDigits)

theorem isTooLong_tooLong : Decimal.isTooLong tooLong = true := by
  rw [Decimal.isTooLong, decide_eq_true_iff, tooLong, Int.ofNat_eq_natCast, Int.natAbs_natCast]

theorem isTooLong_one : Decimal.isTooLong 1 = false := by
  rw [Decimal.isTooLong, decide_eq_false_iff_not, Nat.not_le, Nat.pow_eq]
  exact Nat.one_lt_pow (by decide) (by decide)

/-- A step that has run once and put nothing out. -/
def once : StepProgress := ⟨.inProgress, .int 1, .dict []⟩

/-- Not every run counts for the step that is told by its index: a run is refused whose index is too
long, so that its step has no key, and a run whose index is a truth value counts for another step
than a run whose index is the number that it equals. -/
theorem not_tallied :
    recordAt {} (.int tooLong) (.dict []) = ({}, .error (.noKey .longNumber)) ∧
    recordAt {} (.bool true) (.dict []) = ({ steps := [("True", once)] }, .ok ()) ∧
    recordAt { steps := [("True", once)] } (.int 1) (.dict []) =
      ({ steps := [("True", once), ("1", once)] }, .ok ()) := by
  refine ⟨?_, rfl, ?_⟩
  · rw [recordAt, stepKey_int, if_pos isTooLong_tooLong]
  · rw [recordAt, stepKey_int, isTooLong_one]
    rfl

end Frames

end Progress

end Stepwise
