import Stepwise.Proofs.Entries
import Stepwise.Proofs.Outcome
import Stepwise.Proofs.Progress.RoundTrip

/-!
# Recordings that are refused

A recording counts the run and takes the mark off before it looks at what was put out, and appends
that one name after the other. Progress that was read can hold a count that is no number, an output
that is no object, and in an output something else than lists. So a recording can be refused at each
of these places, and only at the first of them is nothing changed.

* `Takes`: an output to which something can be appended under a name; `Appended` tells what it is
  behind that.
* `appendAll_of_takes`, `appendAll_of_first`: what is appended before the first name to which nothing
  can be.
* `record_whole_iff`: when a recording is made wholly or not at all.
* `not_whole_torn`: progress that can be read and to which half of a recording is made.
-/

namespace Stepwise

open Scalar

/-! ### Values that can be counted up -/

/-- **A value that counts**: a truth value or a number. -/
def Value.IsNumber : Value → Prop
  | .bool _ | .int _ | .float _ => True
  | _ => False

theorem Value.exists_succ_iff {v : Value} : (∃ w, v.succ = .ok w) ↔ v.IsNumber := by
  constructor
  · rintro ⟨w, h⟩
    unfold succ at h
    split at h
    · trivial
    · trivial
    · trivial
    all_goals cases h
  · intro h
    unfold IsNumber at h
    split at h
    · exact ⟨_, rfl⟩
    · exact ⟨_, rfl⟩
    · exact ⟨_, rfl⟩
    · exact h.elim

/-- **What a run puts out**: values under names. -/
structure RunOutput where
  entries : Entries Text Value
  distinct : entries.Distinct

/-- What a run puts out as a mapping. -/
def RunOutput.toValue (r : RunOutput) : Value := .dict (r.entries.map fun (n, v) => (.text n, v))

namespace StepProgress

/-! ### Appending under one name -/

/-- What stands under a name of an output. -/
def valueUnder (output : Value) (name : Text) : Option Value :=
  match output with
  | .dict es => Entries.get? (.text name) es
  | _ => none

/-- The list under a name of an output, which is empty if there is none. -/
def listUnder (output : Value) (name : Text) : List Value :=
  match valueUnder output name with
  | some (.list xs) => xs
  | _ => []

/-- **An output that takes a value under a name**: an object in which the name is free or has a list. -/
def Takes (output : Value) (name : Text) : Prop :=
  (∃ es, output = .dict es) ∧ ∀ w, valueUnder output name = some w → ∃ xs, w = .list xs

theorem appendOutput_of_takes {output : Value} {name : Text} (h : Takes output name) (v : Value) :
    ∃ es, appendOutput output (.text name) v = .ok (.dict es) ∧
      ∀ other, valueUnder (.dict es) other =
        if name = other then some (.list (listUnder output name ++ [v]))
        else valueUnder output other := by
  obtain ⟨⟨es, rfl⟩, hlist⟩ := h
  have hkey : ∀ other : Text, ((Scalar.text name == .text other) = true) ↔ name = other := by
    intro other
    rw [text_beq_text, beq_iff_eq]
  have hunder : ∀ (w : Value) (other : Text),
      valueUnder (.dict (Entries.insert (.text name) w es)) other =
        if name = other then some w else valueUnder (.dict es) other := by
    intro w other
    show Entries.get? _ (Entries.insert _ _ _) = _
    rw [Entries.get?_insert]
    exact if_congr (hkey other) rfl rfl
  cases hget : Entries.get? (.text name) es with
  | none =>
    refine ⟨Entries.insert (.text name) (.list [v]) es, ?_, fun other => ?_⟩
    · simp only [appendOutput, hget]
    · have hempty : listUnder (.dict es) name = [] := by
        simp only [listUnder, valueUnder, hget]
      rw [hunder, hempty, List.nil_append]
  | some w =>
    obtain ⟨xs, rfl⟩ := hlist w hget
    refine ⟨Entries.insert (.text name) (.list (xs ++ [v])) es, ?_, fun other => ?_⟩
    · simp only [appendOutput, hget]
    · have hxs : listUnder (.dict es) name = xs := by
        simp only [listUnder, valueUnder, hget]
      rw [hunder, hxs]

theorem appendOutput_of_not_takes {output : Value} {name : Text} (h : ¬ Takes output name)
    (v : Value) : ∃ f, appendOutput output (.text name) v = .error f := by
  unfold appendOutput
  split
  · next es =>
    split
    · next hnone =>
      refine absurd ⟨⟨es, rfl⟩, fun w hw => ?_⟩ h
      have hw' : Entries.get? (.text name) es = some w := hw
      rw [hnone] at hw'
      cases hw'
    · next xs hxs =>
      refine absurd ⟨⟨es, rfl⟩, fun w hw => ⟨xs, ?_⟩⟩ h
      have hw' : Entries.get? (.text name) es = some w := hw
      rw [hxs] at hw'
      exact (Option.some.inj hw').symm
    · exact ⟨_, rfl⟩
  · exact ⟨_, rfl⟩

/-! ### Appending under some names -/

/-- **What was appended**: each value comes to the end of the list under its name, and what stands
under other names stays as it was. -/
structure Appended (output : Value) (entries : Entries Text Value) (output' : Value) : Prop where
  given : ∀ e ∈ entries, Takes output e.1 ∧
    valueUnder output' e.1 = some (.list (listUnder output e.1 ++ [e.2]))
  other : ∀ name ∉ entries.keys, valueUnder output' name = valueUnder output name
  none : entries = [] → output' = output

section Appended
variable {output output' : Value} {entries : Entries Text Value}

theorem appended_nil (output : Value) : Appended output [] output :=
  ⟨fun _ he => absurd he List.not_mem_nil, fun _ _ => rfl, fun _ => rfl⟩

/-- A name that was not given takes values as before. -/
theorem Appended.takes_iff (h : Appended output entries output') {name : Text}
    (hname : name ∉ entries.keys) : Takes output' name ↔ Takes output name := by
  have hobject : (∃ es, output' = .dict es) ↔ ∃ es, output = .dict es := by
    cases entries with
    | nil => rw [h.none rfl]
    | cons e entries =>
      obtain ⟨⟨hdict, -⟩, hvalue⟩ := h.given e List.mem_cons_self
      refine ⟨fun _ => hdict, fun _ => ?_⟩
      unfold valueUnder at hvalue
      split at hvalue
      · exact ⟨_, rfl⟩
      · cases hvalue
  unfold Takes
  rw [hobject, h.other name hname]

theorem Appended.cons {name : Text} {v : Value} {es : Entries Scalar Value}
    (htakes : Takes output name)
    (hfirst : ∀ other, valueUnder (.dict es) other =
      if name = other then some (.list (listUnder output name ++ [v])) else valueUnder output other)
    (hnew : name ∉ entries.keys) (h : Appended (.dict es) entries output') :
    Appended output ((name, v) :: entries) output' := by
  have hsame : ∀ other, name ≠ other → valueUnder (.dict es) other = valueUnder output other := by
    intro other hne
    rw [hfirst, if_neg hne]
  refine ⟨fun e he => ?_, fun other hother => ?_, fun hnil => by cases hnil⟩
  · rcases List.mem_cons.mp he with rfl | he
    · refine ⟨htakes, ?_⟩
      rw [h.other _ hnew, hfirst, if_pos rfl]
    · have hne : name ≠ e.1 := by
        intro hname
        rw [hname] at hnew
        exact hnew (List.mem_map_of_mem he)
      obtain ⟨⟨-, hlist⟩, hvalue⟩ := h.given e he
      have hunder : listUnder (.dict es) e.1 = listUnder output e.1 := by
        unfold listUnder
        rw [hsame _ hne]
      rw [hunder] at hvalue
      rw [hsame _ hne] at hlist
      exact ⟨⟨htakes.1, hlist⟩, hvalue⟩
  · have hne : name ≠ other := by
      rintro rfl
      exact hother List.mem_cons_self
    have hrest : other ∉ entries.keys := fun hmem => hother (List.mem_cons_of_mem _ hmem)
    rw [h.other other hrest, hsame other hne]

/-- Something that was appended shows. -/
theorem Appended.eq_nil (h : Appended output entries output) : entries = [] := by
  cases entries with
  | nil => rfl
  | cons e entries =>
    obtain ⟨-, hvalue⟩ := h.given e List.mem_cons_self
    have hlist : listUnder output e.1 = listUnder output e.1 ++ [e.2] := by
      conv_lhs => rw [listUnder, hvalue]
    simp at hlist

end Appended

section AppendAll
variable (s : StepProgress) {entries : Entries Text Value}

theorem appendAll_of_takes (hdistinct : entries.Distinct)
    (h : ∀ e ∈ entries, Takes s.output e.1) (rest : List (Scalar × Value)) :
    ∃ output', Appended s.output entries output' ∧
      s.appendAll (entries.map (fun (n, v) => (.text n, v)) ++ rest) =
        ({ s with output := output' } : StepProgress).appendAll rest := by
  induction entries generalizing s with
  | nil => exact ⟨s.output, appended_nil s.output, rfl⟩
  | cons e entries ih =>
    obtain ⟨name, v⟩ := e
    obtain ⟨hnew, hdistinct⟩ := List.pairwise_cons.mp hdistinct
    obtain ⟨htakes, hentries⟩ := List.forall_mem_cons.mp h
    obtain ⟨es, hfirst, hunder⟩ := appendOutput_of_takes htakes v
    have hfree : name ∉ Entries.keys entries := fun hmem => by
      have hne := hnew name hmem
      simp at hne
    have hrest : ∀ e ∈ entries, Takes (.dict es) e.1 := by
      intro e he
      have hne : name ≠ e.1 := by
        intro hname
        rw [hname] at hfree
        exact hfree (List.mem_map_of_mem he)
      refine ⟨⟨es, rfl⟩, fun w hw => (hentries e he).2 w ?_⟩
      rw [hunder, if_neg hne] at hw
      exact hw
    obtain ⟨output', happended, hall⟩ := ih { s with output := .dict es } hdistinct hrest
    refine ⟨output', happended.cons htakes hunder hfree, ?_⟩
    rw [List.map_cons, List.cons_append, appendAll, hfirst]
    exact hall

/-- What comes before the first name to which nothing can be appended is appended, and no more. -/
theorem appendAll_of_first {before after : Entries Text Value} {e : Text × Value}
    (hdistinct : Entries.Distinct (before ++ e :: after)) (h : ∀ b ∈ before, Takes s.output b.1)
    (hfirst : ¬ Takes s.output e.1) :
    ∃ output' f, Appended s.output before output' ∧
      s.appendAll ((before ++ e :: after).map fun (n, v) => (.text n, v)) =
        ({ s with output := output' }, .error f) := by
  have hkeys : (before.keys ++ e.1 :: Entries.keys after).Pairwise fun a b => (a == b) = false := by
    have hall := hdistinct
    unfold Entries.Distinct Entries.keys at hall
    rw [List.map_append, List.map_cons] at hall
    exact hall
  obtain ⟨hbefore, -, hcross⟩ := List.pairwise_append.mp hkeys
  have hnew : e.1 ∉ before.keys := fun hmem => by
    have hne := hcross _ hmem e.1 List.mem_cons_self
    simp at hne
  obtain ⟨output', happended, hall⟩ := appendAll_of_takes s hbefore h
    ((e :: after).map fun (n, v) => (.text n, v))
  have hnot : ¬ Takes output' e.1 := fun htakes => hfirst ((happended.takes_iff hnew).mp htakes)
  obtain ⟨f, hf⟩ := appendOutput_of_not_takes hnot e.2
  refine ⟨output', f, happended, ?_⟩
  rw [List.map_append, hall, List.map_cons, appendAll, hf]

end AppendAll

/-! ### Recordings -/

section Record
variable {s : StepProgress} {count : Value}

theorem record_of_not_number (h : ¬ s.iterations.IsNumber) (values : Value) :
    ∃ f, s.record values = (s, .error f) := by
  cases hsucc : s.iterations.succ with
  | error f =>
    refine ⟨f, ?_⟩
    unfold record
    rw [hsucc]
  | ok w => exact absurd (Value.exists_succ_iff.mp ⟨w, hsucc⟩) h

theorem record_of_number (h : s.iterations.succ = .ok count) (r : RunOutput) :
    s.record r.toValue =
      ({ s with iterations := count, status := .inProgress } : StepProgress).appendAll
        (r.entries.map fun (n, v) => (.text n, v)) := by
  unfold record
  rw [h]
  rfl

/-- **A run that was recorded** with so much of what it put out. -/
structure Recorded (s : StepProgress) (entries : Entries Text Value) (s' : StepProgress) :
    Prop where
  counted : s.iterations.succ = .ok s'.iterations
  started : s'.status = .inProgress
  appended : Appended s.output entries s'.output

/-- Where the count and the mark stay the same and nothing was appended, nothing shows. -/
theorem Recorded.eq_self {s' : StepProgress} (h : Recorded s [] s')
    (hcount : s.iterations.succ = .ok s.iterations) (hstatus : s.status = .inProgress) :
    s' = s := by
  obtain ⟨hcounted, hstarted, happended⟩ := h
  rw [hcount] at hcounted
  obtain ⟨status, iterations, output⟩ := s
  obtain ⟨status', iterations', output'⟩ := s'
  obtain rfl : output' = output := happended.none rfl
  obtain rfl : status = .inProgress := hstatus
  obtain rfl : status' = .inProgress := hstarted
  obtain rfl : iterations = iterations' := Except.ok.inj hcounted
  rfl

theorem record_of_takes (h : s.iterations.IsNumber) (r : RunOutput)
    (htakes : ∀ e ∈ r.entries, Takes s.output e.1) :
    ∃ s', s.record r.toValue = (s', .ok ()) ∧ Recorded s r.entries s' := by
  obtain ⟨count, hcount⟩ := Value.exists_succ_iff.mpr h
  obtain ⟨output', happended, hall⟩ := appendAll_of_takes
    { s with iterations := count, status := .inProgress } r.distinct htakes []
  rw [List.append_nil, ← record_of_number hcount] at hall
  exact ⟨_, hall, hcount, rfl, happended⟩

theorem record_of_first (h : s.iterations.IsNumber) (r : RunOutput)
    {before after : Entries Text Value} {e : Text × Value}
    (hsplit : r.entries = before ++ e :: after) (hbefore : ∀ b ∈ before, Takes s.output b.1)
    (hfirst : ¬ Takes s.output e.1) :
    ∃ s' f, s.record r.toValue = (s', .error f) ∧ Recorded s before s' := by
  obtain ⟨count, hcount⟩ := Value.exists_succ_iff.mpr h
  obtain ⟨output', f, happended, hall⟩ := appendAll_of_first
    { s with iterations := count, status := .inProgress } (hsplit ▸ r.distinct) hbefore hfirst
  rw [← hsplit, ← record_of_number hcount] at hall
  exact ⟨_, f, hall, hcount, rfl, happended⟩

end Record

end StepProgress

namespace Progress

open StepProgress

theorem step_setStep (p : Progress) (key : Text) (s : StepProgress) :
    (p.setStep key s).step key = s := by
  unfold step setStep
  rw [Entries.get?_insert, if_pos BEq.rfl]
  rfl

theorem record_eq {p : Progress} {key : Text} {values : Value} {s : StepProgress}
    {outcome : Except Value.Fault Unit} (h : (p.step key).record values = (s, outcome)) :
    p.record key values = (p.setStep key s, outcome) := by
  unfold record
  rw [h]

/-- **A recording that is made wholly or not at all**: the run is counted and all that it put out is
appended, or the recording is refused and the step is as it was. -/
def RecordsWhole (p : Progress) (key : Text) (r : RunOutput) : Prop :=
  ((p.record key r.toValue).2 = .ok () ∧
    Recorded (p.step key) r.entries ((p.record key r.toValue).1.step key)) ∨
  (∃ f, (p.record key r.toValue).2 = .error f) ∧
    (p.record key r.toValue).1.step key = p.step key

section Whole
variable {p : Progress} {key : Text} {r : RunOutput}

theorem recordsWhole_of_not_number (h : ¬ (p.step key).iterations.IsNumber) :
    RecordsWhole p key r := by
  obtain ⟨f, hf⟩ := record_of_not_number h r.toValue
  refine Or.inr ?_
  rw [record_eq hf, step_setStep]
  exact ⟨⟨f, rfl⟩, rfl⟩

theorem recordsWhole_of_takes (h : ∀ e ∈ r.entries, Takes (p.step key).output e.1) :
    RecordsWhole p key r := by
  by_cases hnumber : (p.step key).iterations.IsNumber
  · obtain ⟨s', hs', hrecorded⟩ := record_of_takes hnumber r h
    refine Or.inl ?_
    rw [record_eq hs', step_setStep]
    exact ⟨rfl, hrecorded⟩
  · exact recordsWhole_of_not_number hnumber

/-- What comes before the first name that the output does not take is recorded, and no more. -/
theorem recorded_of_first (hnumber : (p.step key).iterations.IsNumber)
    {before after : Entries Text Value} {e : Text × Value}
    (hsplit : r.entries = before ++ e :: after)
    (hbefore : ∀ b ∈ before, Takes (p.step key).output b.1)
    (hfirst : ¬ Takes (p.step key).output e.1) :
    (∃ f, (p.record key r.toValue).2 = .error f) ∧
      Recorded (p.step key) before ((p.record key r.toValue).1.step key) := by
  obtain ⟨s', f, hs', hrecorded⟩ := record_of_first hnumber r hsplit hbefore hfirst
  rw [record_eq hs', step_setStep]
  exact ⟨⟨f, rfl⟩, hrecorded⟩

/-- Nothing shows of a recording that is refused under the first name, if the count and the mark
stay the same. -/
theorem recordsWhole_of_unseen
    (hcount : (p.step key).iterations.succ = .ok (p.step key).iterations)
    (hstatus : (p.step key).status = .inProgress) {e : Text × Value}
    (he : e ∈ r.entries.head?) (hfirst : ¬ Takes (p.step key).output e.1) :
    RecordsWhole p key r := by
  have hnumber := Value.exists_succ_iff.mp ⟨_, hcount⟩
  obtain ⟨after, hsplit⟩ := List.head?_eq_some_iff.mp he
  obtain ⟨hrefused, hrecorded⟩ :=
    recorded_of_first hnumber hsplit (fun _ h => absurd h List.not_mem_nil) hfirst
  exact Or.inr ⟨hrefused, hrecorded.eq_self hcount hstatus⟩

/-- If nothing shows of a recording that is refused, then it is so under the first name, and neither
the count nor the mark has changed. -/
theorem unseen_of_recordsWhole (h : RecordsWhole p key r)
    (hnumber : (p.step key).iterations.IsNumber) {before after : Entries Text Value}
    {e : Text × Value} (hsplit : r.entries = before ++ e :: after)
    (hbefore : ∀ b ∈ before, Takes (p.step key).output b.1)
    (hfirst : ¬ Takes (p.step key).output e.1) :
    (p.step key).iterations.succ = .ok (p.step key).iterations ∧
      (p.step key).status = .inProgress ∧ e ∈ r.entries.head? := by
  obtain ⟨⟨f, hf⟩, hrecorded⟩ := recorded_of_first hnumber hsplit hbefore hfirst
  rcases h with ⟨hok, -⟩ | ⟨-, hsame⟩
  · rw [hf] at hok
    cases hok
  · rw [hsame] at hrecorded
    have hnil : before = [] := hrecorded.appended.eq_nil
    subst hnil
    exact ⟨hrecorded.counted, hrecorded.started, List.head?_eq_some_iff.mpr ⟨after, hsplit⟩⟩

end Whole

/-- **When a recording is made wholly or not at all.** For all progress, so also for any that was
read, for each step and for all that a run may put out: the recording is made wholly or not at all
exactly when the count of the step is no number, or its output takes a value under each of the names,
or the count stays the same when one is added, as a large number of double width does, the step is in
progress and its output takes nothing under the first name. Else it is refused behind the count, the
mark and the values before the first name that the output does not take. -/
theorem record_whole_iff (p : Progress) (key : Text) (r : RunOutput) :
    (RecordsWhole p key r ↔
      ¬ (p.step key).iterations.IsNumber ∨
      (∀ e ∈ r.entries, Takes (p.step key).output e.1) ∨
      ((p.step key).iterations.succ = .ok (p.step key).iterations ∧
        (p.step key).status = .inProgress ∧
        ∃ e ∈ r.entries.head?, ¬ Takes (p.step key).output e.1)) ∧
    ((p.step key).iterations.IsNumber → ∀ before e after, r.entries = before ++ e :: after →
      (∀ b ∈ before, Takes (p.step key).output b.1) → ¬ Takes (p.step key).output e.1 →
      (∃ f, (p.record key r.toValue).2 = .error f) ∧
        Recorded (p.step key) before ((p.record key r.toValue).1.step key)) := by
  refine ⟨⟨fun hwhole => ?_, ?_⟩, fun hnumber before e after hsplit hbefore hfirst =>
    recorded_of_first hnumber hsplit hbefore hfirst⟩
  · by_cases hnumber : (p.step key).iterations.IsNumber
    · rcases exists_firstWithout (fun e : Text × Value => Takes (p.step key).output e.1) r.entries
        with htakes | ⟨e, before, after, hsplit, hfirst, hbefore⟩
      · exact Or.inr (Or.inl htakes)
      · obtain ⟨hcount, hstatus, he⟩ :=
          unseen_of_recordsWhole hwhole hnumber hsplit hbefore hfirst
        exact Or.inr (Or.inr ⟨hcount, hstatus, e, he, hfirst⟩)
    · exact Or.inl hnumber
  · rintro (hnumber | htakes | ⟨hcount, hstatus, e, he, hfirst⟩)
    · exact recordsWhole_of_not_number hnumber
    · exact recordsWhole_of_takes htakes
    · exact recordsWhole_of_unseen hcount hstatus he hfirst

/-- Progress of a step that is marked as completed, in whose output nothing can be appended under one
of the names. -/
def torn : Progress where
  steps := [(Text.ofString "0", ⟨.completed, .int 1,
    .dict [(.text "x", .list [.int 1]), (.text "y", .null)]⟩)]

/-- The text that holds it. -/
def tornText : String :=
  "\x7b\"current_step_index\": 0, \"variables\": \x7b\x7d, \"step_states\": \x7b\"0\": " ++
    "\x7b\"status\": \"Completed\", \"iterations\": 1, \"output\": \x7b\"x\": [1], \"y\": null\x7d\x7d\x7d\x7d"

attribute [local instance] Limits.thousandFrames

theorem ofText_torn : ofText tornText = .ok torn := by
  have hint : ∀ i : Int, i.natAbs ≤ 1 → (Value.int i).MadeOf Exact := fun i hi =>
    .scalar (exact_int (hi.trans (by decide)))
  have houtput : (Value.dict [(.text "x", .list [.int 1]), (.text "y", .null)]).MadeOf Exact := by
    refine .dict (by decide) ?_ ?_
    · simp [isName_ofString]
    · simp only [List.forall_mem_cons]
      exact ⟨.list (by simpa using hint 1 (by decide)), .scalar trivial, nofun⟩
  have hmade : torn.MadeOf Exact := by
    refine ⟨hint 0 (by decide), Value.madeOf_empty, by decide, by decide, ?_, ?_⟩
    · simpa [torn] using hint 1 (by decide)
    · simpa [torn] using houtput
  obtain ⟨text, hwrite, hread⟩ := ofText_toText hmade ⟨by decide, by decide⟩
  have htext : torn.toText = .ok tornText := by cbv
  rw [htext] at hwrite
  cases hwrite
  exact hread

/-- What a run puts out under both names. -/
def both : RunOutput := ⟨[(Text.ofString "x", .int 2), (Text.ofString "y", .int 3)], by decide⟩

/-- Half of a recording is made: the count, the mark and the first value have changed, and the second
value is refused. -/
theorem not_whole_torn : ofText tornText = .ok torn ∧ torn.steps.hasKey ("0" : Text) = true ∧
    torn.record "0" both.toValue =
      (torn.setStep "0" ⟨.inProgress, .int 2,
          .dict [(.text "x", .list [.int 1, .int 2]), (.text "y", .null)]⟩,
        .error (.noMember "NoneType" "append")) ∧
    ¬ RecordsWhole torn "0" both := by
  have hrecord : torn.record "0" both.toValue =
      (torn.setStep "0" ⟨.inProgress, .int 2,
          .dict [(.text "x", .list [.int 1, .int 2]), (.text "y", .null)]⟩,
        .error (.noMember "NoneType" "append")) := rfl
  refine ⟨ofText_torn, by decide, hrecord, ?_⟩
  rintro (⟨hok, -⟩ | ⟨-, hsame⟩)
  · rw [hrecord] at hok
    cases hok
  · rw [hrecord, step_setStep] at hsame
    have hstatus : Status.inProgress = (torn.step "0").status := congrArg StepProgress.status hsame
    revert hstatus
    decide

end Progress

end Stepwise
