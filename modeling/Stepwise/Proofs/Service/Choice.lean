import Stepwise.Proofs.Outcome
import Stepwise.Proofs.Service.Log
import Stepwise.Service.Selection

/-!
# What is selected

Which service is selected for some preferences is said by the log of the registry alone.

* `Selection.Meets`: a service meets a preference if it was logged under its service identifier, or,
  where there is none, if it is the first one logged with its model.
* `Selection.Selected`: the first preference that is met comes with the service that meets it; if
  none is met, the first one without identifiers comes with the default; without preferences there
  is the default alone.
* `Selection.select_of_log`: selecting gives what is selected, and fails exactly if nothing is.
-/

namespace Stepwise.Selection

open ServiceRegistry

/-! ### Preferences and the log -/

/-- A preference asks for a service in particular: by a service identifier or by a model. -/
def Qualified (p : ModelSettings) : Prop := p.serviceId.getD "" ≠ "" ∨ p.modelId.getD "" ≠ ""

/-- **A service meets a preference**, by what was logged for a capability. -/
inductive Meets (log : List LogEntry) (p : ModelSettings) : Service → Prop
  | byServiceId {k : String} {e : LogEntry} (given : k ≠ "") (serviceId : p.serviceId = some k)
      (mem : e ∈ log) (id : e.id = some k) : Meets log p e.service
  | byModelId {m : String} {before after : List LogEntry} {e : LogEntry} (given : m ≠ "")
      (serviceId : p.serviceId.getD "" = "") (modelId : p.modelId = some m)
      (split : log = before ++ e :: after) (model : e.service.modelId = some m)
      (first : ∀ d ∈ before, d.service.modelId ≠ some m) : Meets log p e.service

/-- **What is selected** for some preferences. -/
inductive Selected (log : List LogEntry) (ps : List ModelSettings) : Choice → Prop
  | preferred {before after : List ModelSettings} {p : ModelSettings} {s : Service}
      (split : ps = before ++ p :: after) (missed : ∀ q ∈ before, ∀ t, ¬ Meets log q t)
      (met : Meets log p s) : Selected log ps ⟨s, some (before.length, p)⟩
  | fallback {before after : List ModelSettings} {p : ModelSettings} {e : LogEntry}
      (missed : ∀ q ∈ ps, ∀ t, ¬ Meets log q t) (split : ps = before ++ p :: after)
      (qualified : ∀ q ∈ before, Qualified q) (unqualified : ¬ Qualified p)
      (default : standing log = some e) : Selected log ps ⟨e.service, some (before.length, p)⟩
  | plain {e : LogEntry} (empty : ps = []) (default : standing log = some e) :
      Selected log ps ⟨e.service, none⟩

theorem given?_eq_some {id : Option String} {k : String} :
    given? id = some k ↔ id = some k ∧ k ≠ "" := by
  simp [given?, Option.filter_eq_some_iff]

theorem given?_eq_none {id : Option String} : given? id = none ↔ id.getD "" = "" := by
  cases id <;> simp [given?]

theorem isOpen_iff {p : ModelSettings} : isOpen p = true ↔ ¬ Qualified p := by
  simp [isOpen, Qualified, given?_eq_none]

section Meets
variable {log : List LogEntry} {p : ModelSettings} {s : Service}

theorem meets_iff_of_serviceId {k : String} (hid : p.serviceId = some k) (hk : k ≠ "") :
    Meets log p s ↔ ∃ e ∈ log, e.id = some k ∧ e.service = s := by
  constructor
  · intro hmet
    cases hmet with
    | byServiceId given serviceId mem id =>
      rw [hid] at serviceId
      cases serviceId
      exact ⟨_, mem, id, rfl⟩
    | byModelId given serviceId => exact absurd (by simpa [hid] using serviceId) hk
  · rintro ⟨e, he, hek, rfl⟩
    exact .byServiceId hk hid he hek

theorem meets_iff_of_modelId {m : String} (hid : p.serviceId.getD "" = "")
    (hmodel : p.modelId = some m) (hm : m ≠ "") :
    Meets log p s ↔ ∃ before e after, log = before ++ e :: after ∧ e.service = s ∧
      s.modelId = some m ∧ ∀ d ∈ before, d.service.modelId ≠ some m := by
  constructor
  · intro hmet
    cases hmet with
    | byServiceId given serviceId => exact absurd (by simpa [serviceId] using hid) given
    | byModelId given serviceId modelId split model first =>
      rw [hmodel] at modelId
      cases modelId
      exact ⟨_, _, _, split, rfl, model, first⟩
  · rintro ⟨before, e, after, hsplit, rfl, hem, hfirst⟩
    exact .byModelId hm hid hmodel hsplit hem hfirst

theorem Meets.qualified (h : Meets log p s) : Qualified p := by
  cases h with
  | byServiceId given serviceId => exact Or.inl (by simpa [serviceId] using given)
  | byModelId given serviceId modelId => exact Or.inr (by simpa [modelId] using given)

end Meets

section Match
variable {h : History} (hd : h.Described) {c : Capability}
include hd

theorem keyed?_eq_some {k : String} (hk : k ≠ "") {s : Service} :
    h.registry.keyed? c (some k) = some s ↔
      ∃ e ∈ logged h.log c, e.id = some k ∧ e.service = s := by
  rw [← Option.mem_toList, hd.keyed?_eq c hk]
  simp [and_assoc]

theorem byModel?_eq_some {m : String} (hm : m ≠ "") {s : Service} :
    byModel? h.registry c m = some s ↔ ∃ before e after, logged h.log c = before ++ e :: after ∧
      e.service = s ∧ s.modelId = some m ∧ ∀ d ∈ before, d.service.modelId ≠ some m := by
  have hgiven : ∀ s : Service, (given? s.modelId == some m) = true ↔ s.modelId = some m := by
    simp [given?_eq_some, hm]
  rw [byModel?, hd.services_eq, List.find?_map, Option.map_eq_some_iff]
  constructor
  · rintro ⟨e, hfind, rfl⟩
    obtain ⟨he, before, after, hsplit, hfirst⟩ := List.find?_eq_some_iff_append.mp hfind
    refine ⟨before, e, after, hsplit, rfl, (hgiven _).mp he, fun d hbefore hmodel => ?_⟩
    have hmissed := hfirst d hbefore
    rw [Function.comp_apply, (hgiven _).mpr hmodel] at hmissed
    cases hmissed
  · rintro ⟨before, e, after, hsplit, rfl, hmodel, hfirst⟩
    refine ⟨e, List.find?_eq_some_iff_append.mpr ⟨(hgiven _).mpr hmodel, before, after, hsplit, ?_⟩,
      rfl⟩
    intro d hbefore
    simpa [given?_eq_some, hm] using hfirst d hbefore

/-- A preference is matched exactly by what meets it. -/
theorem match?_iff {p : ModelSettings} {s : Service} :
    (∃ note, match? h.registry c p = some (s, note)) ↔ Meets (logged h.log c) p s := by
  unfold match?
  cases hid : given? p.serviceId with
  | some k =>
    -- the model plays no part, whether or not there is a service under the identifier
    obtain ⟨hk, hne⟩ := given?_eq_some.mp hid
    rw [meets_iff_of_serviceId hk hne, ← keyed?_eq_some hd hne]
    simp
  | none =>
    cases hmodel : given? p.modelId with
    | some m =>
      obtain ⟨hm, hne⟩ := given?_eq_some.mp hmodel
      rw [meets_iff_of_modelId (given?_eq_none.mp hid) hm hne, ← byModel?_eq_some hd hne]
      simp
    | none =>
      have hopen : ¬ Qualified p := isOpen_iff.mp (by simp [isOpen, hid, hmodel])
      simpa using fun hmet => hopen hmet.qualified

theorem match?_eq_none {p : ModelSettings} :
    match? h.registry c p = none ↔ ∀ s, ¬ Meets (logged h.log c) p s := by
  rw [Option.eq_none_iff_forall_ne_some]
  constructor
  · intro hnone s hmet
    obtain ⟨note, hmatch⟩ := (match?_iff hd).mpr hmet
    exact hnone _ hmatch
  · intro hmissed ⟨s, note⟩ hmatch
    exact hmissed s ((match?_iff hd).mp ⟨note, hmatch⟩)

end Match

/-! ### The first of some preferences -/

theorem exists_first {α : Type} (P : α → Prop) (l : List α) : (∀ a ∈ l, ¬ P a) ∨
    ∃ before a after, l = before ++ a :: after ∧ P a ∧ ∀ b ∈ before, ¬ P b := by
  rcases exists_firstWithout (fun a => ¬ P a) l with hnone | ⟨a, before, after, hsplit, ha, hfirst⟩
  · exact Or.inl hnone
  · exact Or.inr ⟨before, a, after, hsplit, not_not.mp ha, hfirst⟩

theorem zipIdx_split {α : Type} (before after : List α) (a : α) : (before ++ a :: after).zipIdx =
    before.zipIdx ++ (a, before.length) :: after.zipIdx (before.length + 1) := by
  simp [List.zipIdx_append]

section Select
variable {r : ServiceRegistry} {c : Capability}

/-- The matches of some preferences none of which is matched. -/
theorem findSome?_zipIdx_of_missed {ps : List ModelSettings}
    (hmissed : ∀ q ∈ ps, match? r c q = none) : (ps.zipIdx.findSome? fun (p, i) =>
      (match? r c p).map fun (s, note) => (s, note, i, p)) = none := by
  refine List.findSome?_eq_none_iff.mpr fun e he => ?_
  simp [hmissed e.1 (List.fst_mem_of_mem_zipIdx he)]

theorem select_of_match {before after : List ModelSettings} {p : ModelSettings} {s : Service}
    {note : Note} (hmissed : ∀ q ∈ before, match? r c q = none)
    (hmatch : match? r c p = some (s, note)) :
    select r c (before ++ p :: after) = .ok (⟨s, some (before.length, p)⟩, some note) := by
  have hfirst : ((before ++ p :: after).zipIdx.findSome? fun (p, i) =>
      (match? r c p).map fun (s, note) => (s, note, i, p)) = some (s, note, before.length, p) := by
    rw [zipIdx_split, List.findSome?_append, findSome?_zipIdx_of_missed hmissed,
      List.findSome?_cons]
    simp [hmatch]
  unfold select
  simp only [hfirst]

theorem select_of_missed {ps : List ModelSettings} (hmissed : ∀ q ∈ ps, match? r c q = none) :
    select r c ps = ((fallback? r c ps).map fun choice => (choice, none)).elim
      (.error ⟨c, names ps⟩) .ok := by
  unfold select
  simp only [findSome?_zipIdx_of_missed hmissed]
  cases fallback? r c ps <;> rfl

/-- The first open one of some preferences none of which is open. -/
theorem find?_zipIdx_of_qualified {ps : List ModelSettings} (hps : ∀ q ∈ ps, Qualified q) :
    (ps.zipIdx.find? fun (p, _) => isOpen p) = none := by
  refine List.find?_eq_none.mpr fun e he hopen => ?_
  exact isOpen_iff.mp hopen (hps e.1 (List.fst_mem_of_mem_zipIdx he))

theorem fallback?_nil : fallback? r c [] = (r.default? c).map fun s => ⟨s, none⟩ := rfl

theorem fallback?_of_open {before after : List ModelSettings} {p : ModelSettings}
    (hbefore : ∀ q ∈ before, Qualified q) (hp : ¬ Qualified p) :
    fallback? r c (before ++ p :: after) =
      (r.default? c).map fun s => ⟨s, some (before.length, p)⟩ := by
  have hfirst : ((before ++ p :: after).zipIdx.find? fun (p, _) => isOpen p) =
      some (p, before.length) := by
    rw [zipIdx_split, List.find?_append, find?_zipIdx_of_qualified hbefore, List.find?_cons]
    simp [isOpen_iff.mpr hp]
  unfold fallback?
  simp [hfirst]

theorem fallback?_of_qualified {ps : List ModelSettings} (hne : ps ≠ [])
    (hps : ∀ q ∈ ps, Qualified q) : fallback? r c ps = none := by
  unfold fallback?
  simp [find?_zipIdx_of_qualified hps, hne]

end Select

/-! ### What is selected -/

section Selected
variable {h : History} (hd : h.Described) {c : Capability} {ps : List ModelSettings}
include hd

theorem select_of_selected {choice : Choice} (hs : Selected (logged h.log c) ps choice) :
    ∃ note, select h.registry c ps = .ok (choice, note) := by
  cases hs with
  | preferred split missed met =>
    obtain ⟨note, hmatch⟩ := (match?_iff hd).mpr met
    rw [split]
    exact ⟨some note, select_of_match (fun q hq => (match?_eq_none hd).mpr (missed q hq)) hmatch⟩
  | fallback missed split qualified unqualified default =>
    refine ⟨none, ?_⟩
    rw [select_of_missed fun q hq => (match?_eq_none hd).mpr (missed q hq), split,
      fallback?_of_open qualified unqualified, hd.default?, default]
    rfl
  | plain empty default =>
    refine ⟨none, ?_⟩
    rw [empty, select_of_missed fun q hq => absurd hq List.not_mem_nil, fallback?_nil,
      hd.default?, default]
    rfl

/-- Where no preference is met, the default is selected, or there is no default to select. -/
theorem exists_fallback (hmissed : ∀ q ∈ ps, ∀ s, ¬ Meets (logged h.log c) q s) :
    (∃ choice, Selected (logged h.log c) ps choice) ∨ fallback? h.registry c ps = none := by
  rcases exists_first (fun p => ¬ Qualified p) ps with
    hall | ⟨before, p, after, hsplit, hp, hbefore⟩
  · by_cases hps : ps = []
    · cases hdefault : standing (logged h.log c) with
      | none => exact Or.inr (by rw [hps, fallback?_nil, hd.default?, hdefault]; rfl)
      | some e => exact Or.inl ⟨_, .plain hps hdefault⟩
    · exact Or.inr (fallback?_of_qualified hps fun q hq => not_not.mp (hall q hq))
  · have hqualified : ∀ q ∈ before, Qualified q := fun q hq => not_not.mp (hbefore q hq)
    cases hdefault : standing (logged h.log c) with
    | none =>
      refine Or.inr ?_
      rw [hsplit, fallback?_of_open hqualified hp, hd.default?, hdefault]
      rfl
    | some e => exact Or.inl ⟨_, .fallback hmissed hsplit hqualified hp hdefault⟩

theorem exists_selected : (∃ choice, Selected (logged h.log c) ps choice) ∨
    select h.registry c ps = .error ⟨c, names ps⟩ := by
  rcases exists_first (fun p => ∃ s, Meets (logged h.log c) p s) ps with
    hnone | ⟨before, p, after, hsplit, ⟨s, hs⟩, hfirst⟩
  · have hmissed : ∀ q ∈ ps, ∀ s, ¬ Meets (logged h.log c) q s :=
      fun q hq => not_exists.mp (hnone q hq)
    rcases exists_fallback hd hmissed with hselected | hfallback
    · exact Or.inl hselected
    · refine Or.inr ?_
      rw [select_of_missed fun q hq => (match?_eq_none hd).mpr (hmissed q hq), hfallback]
      rfl
  · exact Or.inl ⟨_, .preferred hsplit (fun q hq => not_exists.mp (hfirst q hq)) hs⟩

theorem select_ok_iff (choice : Choice) :
    (∃ note, select h.registry c ps = .ok (choice, note)) ↔
      Selected (logged h.log c) ps choice := by
  refine ⟨fun ⟨note, hok⟩ => ?_, select_of_selected hd⟩
  rcases exists_selected hd with ⟨choice', hs⟩ | herror
  · obtain ⟨note', hok'⟩ := select_of_selected hd hs
    rw [hok] at hok'
    cases hok'
    exact hs
  · rw [hok] at herror
    cases herror

theorem select_error_iff (e : NotRegistered) : select h.registry c ps = .error e ↔
    (∀ choice, ¬ Selected (logged h.log c) ps choice) ∧ e = ⟨c, names ps⟩ := by
  constructor
  · intro herror
    have hnone : ∀ choice, ¬ Selected (logged h.log c) ps choice := by
      intro choice hs
      obtain ⟨note, hok⟩ := select_of_selected hd hs
      rw [herror] at hok
      cases hok
    rcases exists_selected hd with ⟨choice, hs⟩ | herror'
    · exact absurd hs (hnone choice)
    · rw [herror] at herror'
      exact ⟨hnone, Except.error.inj herror'⟩
  · rintro ⟨hnone, rfl⟩
    exact (exists_selected hd).resolve_left (not_exists.mpr hnone)

end Selected

theorem names_eq (ps : List ModelSettings) : names ps =
    if ps = [] then "<NONE>" else "|".intercalate (ps.map fun p => p.serviceId.getD "") := by
  cases ps <;> rfl

/-- **Selecting gives what is selected**, by the log of the registry, and in exactly the remaining
cases fails with the service identifiers of the preferences in order, a missing one being empty. -/
theorem select_of_log (calls : List Call) (c : Capability) (ps : List ModelSettings) :
    (∀ choice, (∃ note, select (History.run calls).registry c ps = .ok (choice, note)) ↔
      Selected (logged (History.run calls).log c) ps choice) ∧
    ∀ e, select (History.run calls).registry c ps = .error e ↔
      (∀ choice, ¬ Selected (logged (History.run calls).log c) ps choice) ∧
        e = ⟨c, if ps = [] then "<NONE>"
          else "|".intercalate (ps.map fun p => p.serviceId.getD "")⟩ := by
  have hd := History.described_run calls
  refine ⟨select_ok_iff hd, fun e => ?_⟩
  rw [← names_eq]
  exact select_error_iff hd e

/-- An explicit preference that stands late comes before an open one that stands early. -/
example :
    let first : Service := ⟨"first", "Chat", [.chat], none⟩
    let named : Service := ⟨"named", "Chat", [.chat], some "m"⟩
    let calls := [.register .chat first none false, .register .chat named (some "k") false]
    (select (History.run calls).registry .chat [{}, { modelId := some "m" }]).toOption.map
      (fun choice => (choice.1.service, choice.2)) = some (named, some (.byModelId .chat "m")) := by
  decide

end Stepwise.Selection
