import Stepwise.Flow.Registry
import Stepwise.Proofs.Flow.Sorting
import Stepwise.Proofs.Step.Equality

/-!
# Equal flows

Equality of flows looks at their steps, sorting and checking look at the objects: an object never
waits for itself, but two equal objects wait for each other if they read a variable which they
write. So equal flows may be sorted and checked differently.

* `unlikeNeeds`, `Blocked`, `Twins`: what can be told of a flow from its steps. A place is *blocked*
  if waiting between unequal steps leads from it to a ring; two places are *twins* if they have
  equal steps that read a variable which they write.
* `stuckAt_of_blocked`, `stuckAt_of_twins`, `blocked_of_stuckAt`: the places that are stuck in a
  flow are the blocked ones and those that wait for twins of different objects.
* `agrees_of_blocked`: if all twins are blocked then all equal flows agree.
* `split`, `merged`: the equal flow with an object for each place, and the one with an object for
  all equal steps. They disagree if some twins are not blocked.
* `agrees_iff`: all flows that equal a flow agree with it if and only if its twins are blocked.
-/

namespace Stepwise.Flow

/-! ### What can be told from the steps -/

/-- The step at place `i` depends on the one at place `j`, which does not equal it. -/
def unlikeNeeds (ss : List Step) (i j : ℕ) : Bool :=
  match ss[i]?, ss[j]? with
  | some s, some t => !s.same t && s.dependsOn t
  | _, _ => false

/-- **A blocked place**: waiting between unequal steps leads from it to a ring. -/
def Blocked (ss : List Step) (i : ℕ) : Prop :=
  Order.Stuck (unlikeNeeds ss) (List.range ss.length) i

/-- **Twins**: two places with equal steps that read a variable which they write. -/
def Twins (ss : List Step) (i j : ℕ) : Prop :=
  i ≠ j ∧ ∃ s t, ss[i]? = some s ∧ ss[j]? = some t ∧ s.same t = true ∧ s.dependsOn t = true

theorem unlikeNeeds_iff {ss : List Step} {i j : ℕ} : unlikeNeeds ss i j = true ↔
    ∃ s t, ss[i]? = some s ∧ ss[j]? = some t ∧ s.signature ≠ t.signature ∧
      s.dependsOn t = true := by
  unfold unlikeNeeds
  cases ss[i]? <;> cases ss[j]? <;> simp [← Step.same_iff]

theorem Twins.symm {ss : List Step} {i j : ℕ} (h : Twins ss i j) : Twins ss j i := by
  obtain ⟨hij, s, t, hs, ht, hst, hd⟩ := h
  rw [Step.same_iff] at hst
  exact ⟨hij.symm, t, s, ht, hs, Step.same_iff.mpr hst.symm, Step.dependsOn_congr hst hst.symm ▸ hd⟩

section Congr
variable {ss ts : List Step} (h : ss.map Step.signature = ts.map Step.signature)
include h

theorem length_eq_of_signatures : ss.length = ts.length := by
  simpa using congrArg List.length h

theorem exists_step {i : ℕ} {s : Step} (hs : ss[i]? = some s) :
    ∃ t, ts[i]? = some t ∧ s.signature = t.signature := by
  have hi : ss[i]?.map Step.signature = ts[i]?.map Step.signature := by
    rw [← List.getElem?_map, h, List.getElem?_map]
  rw [hs, Option.map_some, eq_comm, Option.map_eq_some_iff] at hi
  obtain ⟨t, ht, he⟩ := hi
  exact ⟨t, ht, he.symm⟩

theorem unlikeNeeds_imp {i j : ℕ} (hn : unlikeNeeds ss i j = true) :
    unlikeNeeds ts i j = true := by
  obtain ⟨s, t, hs, ht, hne, hd⟩ := unlikeNeeds_iff.mp hn
  obtain ⟨s', hs', hss⟩ := exists_step h hs
  obtain ⟨t', ht', htt⟩ := exists_step h ht
  exact unlikeNeeds_iff.mpr ⟨s', t', hs', ht', hss ▸ htt ▸ hne, Step.dependsOn_congr hss htt ▸ hd⟩

theorem unlikeNeeds_congr : unlikeNeeds ss = unlikeNeeds ts := by
  funext i j
  rw [Bool.eq_iff_iff]
  exact ⟨unlikeNeeds_imp h, unlikeNeeds_imp h.symm⟩

theorem blocked_congr {i : ℕ} : Blocked ss i ↔ Blocked ts i := by
  unfold Blocked
  rw [unlikeNeeds_congr h, length_eq_of_signatures h]

theorem Twins.congr {i j : ℕ} (ht : Twins ss i j) : Twins ts i j := by
  obtain ⟨hij, s, t, hs, ht, hst, hd⟩ := ht
  obtain ⟨s', hs', hss⟩ := exists_step h hs
  obtain ⟨t', ht', htt⟩ := exists_step h ht
  rw [Step.same_iff] at hst
  exact ⟨hij, s', t', hs', ht', Step.same_iff.mpr (hss.symm.trans (hst.trans htt)),
    Step.dependsOn_congr hss htt ▸ hd⟩

end Congr

/-! ### Which places are stuck -/

/-- A place whose object is stuck. -/
def StuckAt (f : Flow) (i : ℕ) : Prop :=
  ∃ a, f.places[i]? = some a ∧ Order.Stuck f.needs f.places a

variable {f g : Flow}

theorem length_steps : f.steps.length = f.places.length := by
  simp [steps]

theorem steps_getElem? (i : ℕ) : f.steps[i]? = (f.places[i]?).map f.step := by
  simp [steps]

theorem step_of_place {i : ℕ} {a : Fin f.objects.length} (h : f.places[i]? = some a) :
    f.steps[i]? = some (f.step a) := by
  rw [steps_getElem?, h]; rfl

theorem exists_object {i : ℕ} {s : Step} (h : f.steps[i]? = some s) :
    ∃ a, f.places[i]? = some a ∧ f.step a = s := by
  rw [steps_getElem?, Option.map_eq_some_iff] at h
  exact h

theorem stuckAt_of_blocked {i : ℕ} (h : Blocked f.steps i) : f.StuckAt i := by
  have hobj : ∀ {i}, Blocked f.steps i → ∃ a, f.places[i]? = some a := fun {i} hi => by
    have hlt := List.mem_range.mp hi.mem
    rw [length_steps] at hlt
    exact ⟨f.places[i], List.getElem?_eq_getElem hlt⟩
  obtain ⟨a, ha⟩ := hobj h
  refine ⟨a, ha, Order.stuck_of_supported
    (fun a => ∃ i, f.places[i]? = some a ∧ Blocked f.steps i) ?_ ⟨i, ha, h⟩⟩
  rintro a ⟨i, ha, hi⟩
  obtain ⟨j, hj, -, -, -, hn⟩ := hi.exists_waits
  obtain ⟨b, hb⟩ := hobj hj
  obtain ⟨s, t, hs, ht, hne, hd⟩ := unlikeNeeds_iff.mp hn
  obtain rfl : f.step a = s := Option.some.inj ((step_of_place ha).symm.trans hs)
  obtain rfl : f.step b = t := Option.some.inj ((step_of_place hb).symm.trans ht)
  refine ⟨b, ⟨j, hb, hj⟩, List.mem_of_getElem? ha, List.mem_of_getElem? hb, ?_, hd⟩
  rintro rfl
  exact hne rfl

/-- Twins of different objects wait for each other. -/
theorem stuckAt_of_twins {i j : ℕ} (h : Twins f.steps i j) (hne : f.places[i]? ≠ f.places[j]?) :
    f.StuckAt i := by
  have hobj : ∀ {i j}, Twins f.steps i j → ∃ a b, f.places[i]? = some a ∧ f.places[j]? = some b ∧
      f.needs a b = true := by
    rintro i j ⟨-, s, t, hs, ht, -, hd⟩
    obtain ⟨a, ha, rfl⟩ := exists_object hs
    obtain ⟨b, hb, rfl⟩ := exists_object ht
    exact ⟨a, b, ha, hb, hd⟩
  obtain ⟨a, -, ha, -, -⟩ := hobj h
  refine ⟨a, ha, Order.stuck_of_supported (fun a => ∃ i j, f.places[i]? = some a ∧
    Twins f.steps i j ∧ f.places[i]? ≠ f.places[j]?) ?_ ⟨i, j, ha, h, hne⟩⟩
  rintro a ⟨i, j, ha, ht, hne⟩
  obtain ⟨a', b, ha', hb, hn⟩ := hobj ht
  obtain rfl : a = a' := Option.some.inj (ha.symm.trans ha')
  refine ⟨b, ⟨j, i, hb, ht.symm, hne.symm⟩, List.mem_of_getElem? ha, List.mem_of_getElem? hb, ?_,
    hn⟩
  rintro rfl
  exact hne (ha.trans hb.symm)

/-- **Nothing else is stuck**: if the twins of different objects are blocked, so is every place
that is stuck. -/
theorem blocked_of_stuckAt
    (hf : ∀ i j, Twins f.steps i j → f.places[i]? ≠ f.places[j]? → Blocked f.steps i) {i : ℕ}
    (h : f.StuckAt i) : Blocked f.steps i := by
  have hmem : ∀ {i a}, f.places[i]? = some a → i ∈ List.range f.steps.length := fun {i a} ha => by
    rw [List.mem_range, length_steps]
    exact (List.getElem?_eq_some_iff.mp ha).1
  refine Order.stuck_of_supported f.StuckAt ?_ h
  rintro i ⟨a, ha, hs⟩
  obtain ⟨b, hbs, -, hb, hne, hn⟩ := hs.exists_waits
  obtain ⟨j, hj⟩ := List.mem_iff_getElem?.mp hb
  by_cases hab : (f.step a).signature = (f.step b).signature
  · -- `i` and `j` are twins, so `i` waits for a blocked place.
    have hij : f.places[i]? ≠ f.places[j]? := by
      rw [ha, hj]; exact fun he => hne (Option.some.inj he).symm
    have htw : Twins f.steps i j := ⟨fun he => hij (he ▸ rfl), f.step a, f.step b,
      step_of_place ha, step_of_place hj, Step.same_iff.mpr hab, hn⟩
    obtain ⟨k, hk, hw⟩ := (hf i j htw hij).exists_waits
    exact ⟨k, stuckAt_of_blocked hk, hw⟩
  · refine ⟨j, ⟨b, hj, hbs⟩, hmem ha, hmem hj, ?_, unlikeNeeds_iff.mpr
      ⟨f.step a, f.step b, step_of_place ha, step_of_place hj, hab, hn⟩⟩
    rintro rfl
    exact hab (by rw [Option.some.inj (hj.symm.trans ha)])

/-! ### What sorting and checking give -/

/-- **Sorting gives the same**: rows of equal steps, or errors with the same goals. -/
def SameOrder (f g : Flow) : Prop :=
  match f.sorted, g.sorted with
  | .ok r, .ok q => List.Forall₂ (fun s t => s.same t = true) (r.map f.step) (q.map g.step)
  | .error c, .error d => c = d
  | _, _ => False

/-- **Two flows agree**: checking and sorting them give the same. -/
def Agrees (f g : Flow) : Prop := f.check = g.check ∧ f.SameOrder g

open Classical in
/-- The places that are stuck, in order. -/
noncomputable def stuckPlaces (f : Flow) : List ℕ :=
  (List.range f.steps.length).filter (f.StuckAt ·)

theorem mem_stuckPlaces {i : ℕ} : i ∈ f.stuckPlaces ↔ f.StuckAt i := by
  simp only [stuckPlaces, List.mem_filter, List.mem_range, decide_eq_true_eq, length_steps,
    and_iff_right_iff_imp]
  rintro ⟨a, ha, -⟩
  exact (List.getElem?_eq_some_iff.mp ha).1

open Classical in
theorem goals_eq_stuckPlaces :
    ((f.places.filter (Order.Stuck f.needs f.places ·)).map fun a => (f.step a).goal).map some =
      f.stuckPlaces.map fun i => f.steps[i]?.map Step.goal := by
  have hplaces : f.stuckPlaces = (List.range f.places.length).filter fun i =>
      f.places[i]?.any fun a => decide (Order.Stuck f.needs f.places a) := by
    unfold stuckPlaces
    rw [length_steps]
    refine List.filter_congr fun i _ => ?_
    rw [Bool.eq_iff_iff, decide_eq_true_eq, Option.any_eq_true]
    simp only [StuckAt, decide_eq_true_eq]
  have h := congrArg (List.map (Option.map fun a => (f.step a).goal))
    (Order.filter_places f.places fun a => decide (Order.Stuck f.needs f.places a))
  rw [← hplaces] at h
  simpa [steps_getElem?, Function.comp_def] using h

theorem exists_stuckAt_iff : (∃ i, f.StuckAt i) ↔ ∃ c, Order.Ring f.needs f.places c := by
  rw [← Order.exists_stuck_iff]
  constructor
  · rintro ⟨i, a, -, hs⟩; exact ⟨a, hs⟩
  · rintro ⟨a, hs⟩
    obtain ⟨i, hi⟩ := List.mem_iff_getElem?.mp hs.mem
    exact ⟨i, a, hi, hs⟩

theorem map_some_inj {α : Type} {xs ys : List α} : xs.map some = ys.map some ↔ xs = ys :=
  (List.map_injective_iff.mpr (Option.some_injective _)).eq_iff

/-- An error lists the goals at the stuck places. -/
theorem sorted_error_iff_stuckAt {cycle : Cycle} : f.sorted = .error cycle ↔
    (∃ i, f.StuckAt i) ∧
      cycle.goals.map some = f.stuckPlaces.map fun i => f.steps[i]?.map Step.goal := by
  rw [sorted_eq_error_iff, exists_stuckAt_iff, ← goals_eq_stuckPlaces, map_some_inj]

theorem exists_sorted_iff_stuckAt : (∃ r, f.sorted = .ok r) ↔ ∀ i, ¬ f.StuckAt i := by
  rw [exists_sorted_iff, ← exists_stuckAt_iff, not_exists]

/-- If the places of a flow that are stuck are so in a flow of equal steps, and the goals there are
the same, then the same places are stuck. -/
theorem stuckAt_of_goals (hsub : ∀ i, f.StuckAt i → g.StuckAt i)
    (hlen : f.steps.length = g.steps.length)
    (hgoals : (f.stuckPlaces.map fun i => f.steps[i]?.map Step.goal) =
      g.stuckPlaces.map fun i => g.steps[i]?.map Step.goal) {i : ℕ} (h : g.StuckAt i) :
    f.StuckAt i := by
  have hs : f.stuckPlaces.Sublist g.stuckPlaces := by
    unfold stuckPlaces
    rw [hlen]
    exact List.monotone_filter_right _ fun i hi => by
      simp only [decide_eq_true_eq] at hi ⊢; exact hsub i hi
  have heq := hs.eq_of_length (by simpa using congrArg List.length hgoals)
  rw [← mem_stuckPlaces, heq, mem_stuckPlaces]
  exact h

/-! ### Flows whose twins are blocked -/

theorem waitsAt_iff (hf : ∀ i j, Twins f.steps i j → f.places[i]? = f.places[j]?) {i j : ℕ} :
    Order.WaitsAt f.needs f.places i j ↔ unlikeNeeds f.steps i j = true := by
  rw [unlikeNeeds_iff]
  constructor
  · rintro ⟨a, b, ha, hb, hne, hn⟩
    refine ⟨f.step a, f.step b, step_of_place ha, step_of_place hb, fun he => ?_, hn⟩
    have hij : f.places[i]? ≠ f.places[j]? := by
      rw [ha, hb]; exact fun h => hne (Option.some.inj h).symm
    exact hij (hf i j ⟨fun h => hij (h ▸ rfl), f.step a, f.step b, step_of_place ha,
      step_of_place hb, Step.same_iff.mpr he, hn⟩)
  · rintro ⟨s, t, hs, ht, hne, hd⟩
    obtain ⟨a, ha, rfl⟩ := exists_object hs
    obtain ⟨b, hb, rfl⟩ := exists_object ht
    refine ⟨a, b, ha, hb, ?_, hd⟩
    rintro rfl
    exact hne rfl

/-- The signatures of the steps of a sorted row, by their places. -/
theorem signatures_of_reads {ps : List ℕ} {r : List (Fin f.objects.length)}
    (h : Order.Reads f.places ps r) : ((r.map f.step).map Step.signature).map some =
      ps.map fun i => (f.steps.map Step.signature)[i]? := by
  have h' := congrArg (List.map (Option.map fun a => (f.step a).signature)) h.elements
  simpa [steps_getElem?, Function.comp_def] using h'.symm

section Same
variable (h : f.same g = true)
include h

theorem goal_at_congr (i : ℕ) : f.steps[i]?.map Step.goal = g.steps[i]?.map Step.goal := by
  have hi : (f.steps.map Step.signature)[i]? = (g.steps.map Step.signature)[i]? := by
    rw [(same_iff.mp h).2.2]
  have hi' := congrArg (Option.map Step.Signature.goal) hi
  simpa [Function.comp_def, Step.signature] using hi'

/-- Rows read off the same places are rows of equal steps. -/
theorem forall₂_same_of_reads {ps : List ℕ} {r : List (Fin f.objects.length)}
    {q : List (Fin g.objects.length)} (hr : Order.Reads f.places ps r)
    (hq : Order.Reads g.places ps q) :
    List.Forall₂ (fun s t => s.same t = true) (r.map f.step) (q.map g.step) := by
  have heq : (r.map f.step).map Step.signature = (q.map g.step).map Step.signature := by
    rw [← map_some_inj, signatures_of_reads hr, signatures_of_reads hq, (same_iff.mp h).2.2]
  simp only [Step.same_iff]
  rw [← List.forall₂_eq_eq_eq, List.forall₂_map_left_iff, List.forall₂_map_right_iff] at heq
  exact heq

variable (hf : ∀ i j, Twins f.steps i j → Blocked f.steps i)
include hf

theorem stuckAt_congr (i : ℕ) : f.StuckAt i ↔ g.StuckAt i := by
  have hsig := (same_iff.mp h).2.2
  have hg : ∀ i j, Twins g.steps i j → Blocked g.steps i := fun i j ht =>
    (blocked_congr hsig).mp (hf i j (ht.congr hsig.symm))
  constructor <;> intro hi
  · exact stuckAt_of_blocked <| (blocked_congr hsig).mp <|
      blocked_of_stuckAt (fun i j ht _ => hf i j ht) hi
  · exact stuckAt_of_blocked <| (blocked_congr hsig).mpr <|
      blocked_of_stuckAt (fun i j ht _ => hg i j ht) hi

/-- Without stuck places there are no twins, so the same orders are valid. -/
theorem valid_congr (hno : ∀ i, ¬ f.StuckAt i) {ps : List ℕ} :
    Order.Valid f.needs f.places ps ↔ Order.Valid g.needs g.places ps := by
  have hsig := (same_iff.mp h).2.2
  have hlen : f.places.length = g.places.length := by
    rw [← length_steps, ← length_steps, length_eq_of_signatures hsig]
  have htwins : ∀ i j, ¬ Twins f.steps i j := fun i j ht => hno i (stuckAt_of_blocked (hf i j ht))
  have hwaits : ∀ i j, Order.WaitsAt f.needs f.places i j ↔ Order.WaitsAt g.needs g.places i j := by
    intro i j
    rw [waitsAt_iff fun i j ht => absurd ht (htwins i j),
      waitsAt_iff fun i j ht => absurd (ht.congr hsig.symm) (htwins i j), unlikeNeeds_congr hsig]
  constructor
  · rintro ⟨hp, hw⟩; exact ⟨hlen ▸ hp, by simpa only [← hwaits] using hw⟩
  · rintro ⟨hp, hw⟩; exact ⟨hlen ▸ hp, by simpa only [hwaits] using hw⟩

/-- **If all twins are blocked then equal flows are sorted alike.** -/
theorem sameOrder_of_blocked : f.SameOrder g := by
  have hstuck := stuckAt_congr h hf
  unfold SameOrder
  cases hfs : f.sorted with
  | ok r =>
    have hno := exists_sorted_iff_stuckAt.mp ⟨r, hfs⟩
    obtain ⟨q, hgs⟩ := exists_sorted_iff_stuckAt.mpr fun i hi => hno i ((hstuck i).mpr hi)
    rw [hgs]
    obtain ⟨ps, hread, hvalid, hleast⟩ := exists_places hfs
    obtain ⟨qs, hread', hvalid', hleast'⟩ := exists_places hgs
    have hpq : ps = qs := le_antisymm (hleast qs ((valid_congr h hf hno).mpr hvalid'))
      (hleast' ps ((valid_congr h hf hno).mp hvalid))
    exact forall₂_same_of_reads h hread (hpq ▸ hread')
  | error c =>
    obtain ⟨⟨i, hi⟩, hc⟩ := sorted_error_iff_stuckAt.mp hfs
    cases hgs : g.sorted with
    | ok q => exact exists_sorted_iff_stuckAt.mp ⟨q, hgs⟩ i ((hstuck i).mp hi)
    | error d =>
      obtain ⟨-, hd⟩ := sorted_error_iff_stuckAt.mp hgs
      have hplaces : f.stuckPlaces = g.stuckPlaces := by
        unfold stuckPlaces
        rw [length_eq_of_signatures (same_iff.mp h).2.2]
        exact List.filter_congr fun i _ => decide_eq_decide.mpr (hstuck i)
      obtain ⟨gs⟩ := c
      obtain ⟨gs'⟩ := d
      have hgoals : gs.map some = gs'.map some := by
        rw [hc, hd, hplaces]
        simp only [goal_at_congr h]
      rw [map_some_inj] at hgoals
      exact congrArg Cycle.mk hgoals

omit hf in
/-- Equal flows that are sorted alike have the same first violation. -/
theorem check_of_sameOrder (ho : f.SameOrder g) : f.check = g.check := by
  obtain ⟨hname, hgoal, hsig⟩ := same_iff.mp h
  have hempty : f.steps.isEmpty = g.steps.isEmpty := Step.isEmpty_of_map_eq hsig
  unfold check violation?
  rw [hname, hgoal, hempty, findSome?_congr Step.referenceViolation?_congr hsig,
    findSome?_congr Step.messageViolation?_congr hsig,
    findSome?_congr Step.passthroughViolation?_congr hsig]
  unfold SameOrder at ho
  cases hfs : f.sorted with
  | ok r =>
    cases hgs : g.sorted with
    | ok q => rfl
    | error d => rw [hfs, hgs] at ho; cases ho
  | error c =>
    cases hgs : g.sorted with
    | ok q => rw [hfs, hgs] at ho; cases ho
    | error d => rw [hfs, hgs] at ho; cases ho; rfl

theorem agrees_of_blocked : f.Agrees g :=
  ⟨check_of_sameOrder h (sameOrder_of_blocked h hf), sameOrder_of_blocked h hf⟩

end Same

/-! ### The flows with the fewest and the most objects -/

/-- The flow of the same steps in which each place has an object of its own. -/
def split (f : Flow) : Flow := ofSteps f.name f.goal f.steps

theorem findIdx_same_lt {ss : List Step} {s : Step} (h : s ∈ ss) :
    ss.findIdx (·.same s) < ss.length :=
  List.findIdx_lt_length_of_exists ⟨s, h, Step.same_iff.mpr rfl⟩

/-- The flow in which equal steps are one object, the first of them. -/
def merged (f : Flow) : Flow where
  name := f.name
  goal := f.goal
  objects := f.steps
  places := f.steps.attach.map fun s => ⟨f.steps.findIdx (·.same s.1), findIdx_same_lt s.2⟩

theorem same_split : f.same f.split = true :=
  same_iff.mpr ⟨rfl, rfl, by rw [split, steps_ofSteps]⟩

theorem places_split {i j : ℕ} (h : Twins f.steps i j) :
    f.split.places[i]? ≠ f.split.places[j]? := by
  obtain ⟨hij, s, t, hs, ht, -⟩ := h
  obtain ⟨hi, -⟩ := List.getElem?_eq_some_iff.mp hs
  obtain ⟨hj, -⟩ := List.getElem?_eq_some_iff.mp ht
  have hl : f.split.places.length = f.steps.length := by simp [split, ofSteps]
  rw [List.getElem?_eq_getElem (hl.symm ▸ hi), List.getElem?_eq_getElem (hl.symm ▸ hj)]
  simp [split, ofSteps, hij]

theorem same_merged : f.same f.merged = true := by
  refine same_iff.mpr ⟨rfl, rfl, ?_⟩
  apply List.ext_getElem
  · simp [merged, steps]
  · intro i hi hi'
    have hlt : i < f.steps.length := by simpa using hi
    have hidx := findIdx_same_lt (List.getElem_mem hlt)
    have hsame := List.findIdx_getElem (w := hidx)
    simp only [List.getElem_map, merged, steps, step, List.getElem_attach,
      List.get_eq_getElem] at hsame ⊢
    exact (Step.same_iff.mp hsame).symm

theorem places_merged {i j : ℕ} (h : Twins f.steps i j) :
    f.merged.places[i]? = f.merged.places[j]? := by
  obtain ⟨-, s, t, hs, ht, hst, -⟩ := h
  obtain ⟨hi, hs⟩ := List.getElem?_eq_some_iff.mp hs
  obtain ⟨hj, ht⟩ := List.getElem?_eq_some_iff.mp ht
  have hsig : (f.steps[i]).signature = (f.steps[j]).signature := by
    rw [hs, ht]; exact Step.same_iff.mp hst
  have hfun : (fun s : Step => s.same f.steps[i]) = fun s => s.same f.steps[j] := by
    funext s
    rw [Bool.eq_iff_iff, Step.same_iff, Step.same_iff, hsig]
  have hl : f.merged.places.length = f.steps.length := by simp [merged]
  rw [List.getElem?_eq_getElem (hl.symm ▸ hi), List.getElem?_eq_getElem (hl.symm ▸ hj)]
  simp [merged, hfun]

/-- **Twins that are not blocked tell the two apart**: they are stuck in the flow with an object for
each place, and not in the one with an object for equal steps. -/
theorem blocked_of_agrees (h : ∀ g, f.same g = true → f.Agrees g) {i j : ℕ}
    (ht : Twins f.steps i j) : Blocked f.steps i := by
  have hsplit : f.split.steps = f.steps := steps_ofSteps _ _ _
  have hmerged := (same_iff.mp (same_merged (f := f))).2.2
  have hblocked : ∀ k, f.merged.StuckAt k → Blocked f.steps k := fun k hk =>
    (blocked_congr hmerged).mpr <| blocked_of_stuckAt
      (fun a b hab hne => absurd (places_merged (hab.congr hmerged.symm)) hne) hk
  have hstuck : f.split.StuckAt i := by
    refine stuckAt_of_twins (j := j) ?_ (places_split ht)
    rw [hsplit]; exact ht
  -- Both are refused as `f` is, so with the same goals.
  have hos := (h _ same_split).2
  have hom := (h _ same_merged).2
  unfold SameOrder at hos hom
  cases hs : f.split.sorted with
  | ok r => exact absurd hstuck (exists_sorted_iff_stuckAt.mp ⟨r, hs⟩ i)
  | error c =>
    cases hfs : f.sorted with
    | ok r => rw [hfs, hs] at hos; cases hos
    | error d =>
      cases hm : f.merged.sorted with
      | ok q => rw [hfs, hm] at hom; cases hom
      | error e =>
        rw [hfs, hs] at hos
        rw [hfs, hm] at hom
        obtain rfl : d = c := hos
        obtain rfl : d = e := hom
        have hgs := (sorted_error_iff_stuckAt.mp hs).2
        have hgm := (sorted_error_iff_stuckAt.mp hm).2
        refine hblocked i (stuckAt_of_goals (fun k hk => stuckAt_of_blocked ?_) ?_
          (hgm.symm.trans hgs) hstuck)
        · rw [hsplit]; exact hblocked k hk
        · rw [hsplit]; exact (length_eq_of_signatures hmerged).symm

theorem agrees_iff_blocked : (∀ g, f.same g = true → f.Agrees g) ↔
    ∀ i j, Twins f.steps i j → Blocked f.steps i :=
  ⟨fun h _ _ ht => blocked_of_agrees h ht, fun hf _ h => agrees_of_blocked h hf⟩

/-! ### Registered flows -/

/-- What is found after a flow has been registered is that flow, or the equal one that was there. -/
theorem get_of_register {r r' : FlowRegistry} (h : r.register f = .ok r') :
    ∃ g, r'.get f.name = .ok g ∧ f.same g = true := by
  unfold FlowRegistry.register at h
  cases hg : r.flows.get? f.name with
  | none =>
    rw [hg] at h
    cases h
    refine ⟨f, ?_, same_iff.mpr ⟨rfl, rfl, rfl⟩⟩
    unfold FlowRegistry.get
    simp [Entries.get?_insert]
  | some g =>
    rw [hg] at h
    dsimp only at h
    split_ifs at h with hs
    cases h
    refine ⟨g, ?_, same_symm hs⟩
    unfold FlowRegistry.get
    rw [hg]

/-- Every flow that equals another one is found after that one has been registered again. -/
theorem exists_registered (h : f.same g = true) :
    ∃ r r' : FlowRegistry, r.register f = .ok r' ∧ r'.get f.name = .ok g := by
  have hname := (same_iff.mp h).1
  have hget : Entries.get? f.name [(g.name, g)] = some g := by simp [Entries.get?, hname]
  refine ⟨⟨[(g.name, g)]⟩, ⟨[(g.name, g)]⟩, ?_, ?_⟩
  · unfold FlowRegistry.register
    rw [hget]
    exact if_pos (same_symm h)
  · unfold FlowRegistry.get
    rw [hget]

/-- **When equality of flows can be relied on**: all flows that equal a flow agree with it, and so
does whatever is registered in its place, if and only if its twins are blocked. -/
theorem agrees_iff (f : Flow) :
    ((∀ g, f.same g = true → f.Agrees g) ↔ ∀ i j, Twins f.steps i j → Blocked f.steps i) ∧
    ((∀ r r' : FlowRegistry, r.register f = .ok r' →
        ∃ g, r'.get f.name = .ok g ∧ f.Agrees g) ↔
      ∀ i j, Twins f.steps i j → Blocked f.steps i) := by
  refine ⟨agrees_iff_blocked, fun h => agrees_iff_blocked.mp fun g hfg => ?_, fun hf r r' hr => ?_⟩
  · obtain ⟨r, r', hr, hg⟩ := exists_registered hfg
    obtain ⟨g', hg', hag⟩ := h r r' hr
    rw [hg] at hg'
    cases hg'
    exact hag
  · obtain ⟨g, hg, hfg⟩ := get_of_register hr
    exact ⟨g, hg, agrees_of_blocked hfg hf⟩

/-- A step that reads a variable which it writes. -/
def counting : Step where
  goal := some [.char 'a']
  requires := [.text [.char 'x']]
  provides := [.text [.char 'x']]

/-- One such step at two places. -/
def lone : Flow where
  name := some [.char 'f']
  goal := some [.char 'g']
  objects := [counting]
  places := [0, 0]

/-- Two such steps. -/
def pair : Flow := ofSteps (some [.char 'f']) (some [.char 'g']) [counting, counting]

/-- The two flows are equal, one is well formed and the other is not, and the registry that has the
second takes the first and keeps the second. -/
theorem not_agrees_pair : lone.same pair = true ∧ lone.check = .ok () ∧
    pair.check = .error (.notOrdered ⟨[some [.char 'a'], some [.char 'a']]⟩) ∧
      FlowRegistry.register ⟨[(pair.name, pair)]⟩ lone = .ok ⟨[(pair.name, pair)]⟩ := by
  have hlone : lone.sorted = .ok ([0, 0] : List (Fin 1)) :=
    sorted_ok_iff.mpr <| Order.arrange_step (by decide) rfl <| Order.arrange_step (by decide) rfl <|
      Order.arrange_of_none rfl
  have hpair : pair.sorted = .error ⟨[some [.char 'a'], some [.char 'a']]⟩ := by
    rw [sorted_eq_arrange_needs, Order.arrange_of_none (by decide)]
    rfl
  refine ⟨by decide, ?_, ?_, ?_⟩
  · unfold check violation?
    rw [hlone]
    rfl
  · unfold check violation?
    rw [hpair]
    rfl
  · unfold FlowRegistry.register
    rfl

end Stepwise.Flow
