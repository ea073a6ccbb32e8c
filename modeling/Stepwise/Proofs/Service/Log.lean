import Stepwise.Proofs.Entries
import Stepwise.Service.Registry

/-!
# A registry and its log

A registry is filled by calls that register a service or take all services out. Beside the registry
stands the log of what was registered since it was empty last, as it was asked for.

* `register_cases`: what registering can do. It is refused, and the registry stays as it was; or the
  capability gets one registration more, and a new default if it is to or if it had none.
* `History.Described`: the registrations for a capability are the log's in order, no identifier comes
  twice, and the default is the last one that asked to be it, or else the first one. One call keeps
  this (`Described.act`), and so does a run (`described_run`).
* `lookups_of_log`: so all look-ups of a registry are told by its log.
-/

namespace Stepwise.ServiceRegistry

/-! ### What registering can do -/

/-- A capability has a service under an identifier. -/
def Used (r : ServiceRegistry) (c : Capability) (k : String) : Prop :=
  ∃ e ∈ r.entries c, e.id = some k

theorem proper_eq_some {id : Option String} {k : String} :
    proper id = some k ↔ id = some k ∧ k ≠ "" := by
  simp [proper, Option.filter_eq_some_iff]

section Register
variable (r : ServiceRegistry) (c : Capability)

theorem insertNew_of_used {k : String} (h : r.Used c k) :
    { r with registrations := r.registrations.insertNew c [] } = r := by
  obtain ⟨e, he, -⟩ := h
  have hkey : r.registrations.hasKey c = true := by
    rw [← Entries.isSome_get?]
    unfold entries at he
    cases hget : r.registrations.get? c with
    | none => simp [hget] at he
    | some es => rfl
  rw [Entries.insertNew_of_hasKey hkey]

theorem entries_insertNew (c' : Capability) :
    entries { r with registrations := r.registrations.insertNew c [] } c' = r.entries c' := by
  simp only [entries, Entries.get?_insertNew, beq_iff_eq]
  cases r.registrations.get? c' with
  | none => split <;> rfl
  | some es => rfl

theorem entries_insert (es : List Registration) (ds : Entries Capability Service)
    (c' : Capability) :
    entries { registrations := r.registrations.insert c es, defaults := ds } c' =
      if c = c' then es else r.entries c' := by
  simp only [entries, Entries.get?_insert, beq_iff_eq]
  split <;> rfl

theorem default?_eq_none_iff : r.default? c = none ↔ r.defaults.hasKey c = false := by
  rw [default?, ← Entries.isSome_get?, Option.isSome_eq_false_iff, Option.isNone_iff_eq_none]

theorem default?_insert (rs : Entries Capability (List Registration)) (s : Service)
    (asDefault : Bool) (c' : Capability) :
    default? { registrations := rs, defaults :=
        if asDefault || !r.defaults.hasKey c then r.defaults.insert c s else r.defaults } c' =
      if c = c' ∧ (asDefault = true ∨ r.default? c = none) then some s else r.default? c' := by
  have hiff : (asDefault || !r.defaults.hasKey c) = true ↔
      asDefault = true ∨ r.default? c = none := by
    rw [default?_eq_none_iff, Bool.or_eq_true, Bool.not_eq_true']
  by_cases hnew : asDefault = true ∨ r.default? c = none
  · rw [if_pos (hiff.mpr hnew), default?, Entries.get?_insert]
    by_cases hc : c = c'
    · rw [if_pos (by simpa using hc), if_pos ⟨hc, hnew⟩]
    · rw [if_neg (by simpa using hc), if_neg fun h => hc h.1]
      rfl
  · rw [if_neg fun h => hnew (hiff.mp h), if_neg fun h => hnew h.2]
    rfl

/-- **What registering can do.** -/
theorem register_cases (s : Service) (id : Option String) (asDefault : Bool) :
    (s.offers c = false ∧ r.register c s id asDefault = (r, .error (.notOffered s.type c))) ∨
    (s.offers c = true ∧ ∃ k, proper id = some k ∧ r.Used c k ∧
      r.register c s id asDefault = (r, .error (.taken k c))) ∨
    (s.offers c = true ∧ (∀ k, proper id = some k → ¬ r.Used c k) ∧
      ∃ r', r.register c s id asDefault = (r', .ok ()) ∧
        (∀ c', r'.entries c' =
          if c = c' then r.entries c ++ [⟨s, proper id⟩] else r.entries c') ∧
        ∀ c', r'.default? c' =
          if c = c' ∧ (asDefault = true ∨ r.default? c = none) then some s else r.default? c') := by
  by_cases hoffers : s.offers c = true
  · refine Or.inr ?_
    have hused : ∀ k, ((r.entries c).any fun e => e.id == some k) = true ↔ r.Used c k := by
      simp [Used]
    unfold register
    rw [if_neg (by simp [hoffers])]
    -- the empty row that is made for the capability changes no registrations
    simp only [entries_insertNew]
    cases hfilter : (proper id).filter fun k => (r.entries c).any fun e => e.id == some k with
    | some k =>
      obtain ⟨hid, hany⟩ := Option.filter_eq_some_iff.mp hfilter
      have hk := (hused k).mp hany
      exact Or.inl ⟨hoffers, k, hid, hk, by rw [insertNew_of_used r c hk]⟩
    | none =>
      have hfree : ∀ k, proper id = some k → ¬ r.Used c k := by
        intro k hid hk
        exact Option.filter_eq_none_iff.mp hfilter k hid ((hused k).mpr hk)
      refine Or.inr ⟨hoffers, hfree, _, rfl, fun c' => ?_, default?_insert r c _ s asDefault⟩
      rw [entries_insert { r with registrations := r.registrations.insertNew c [] }]
      rw [entries_insertNew]
  · exact Or.inl ⟨by simpa using hoffers, by rw [register, if_pos (by simpa using hoffers)]⟩

end Register

/-! ### The log -/

/-- A call on a registry. -/
inductive Call where
  | register (c : Capability) (s : Service) (id : Option String) (asDefault : Bool)
  | clear

/-- What was registered. -/
structure LogEntry where
  capability : Capability
  service : Service
  id : Option String
  asDefault : Bool

/-- What the log has for a capability. -/
def logged (log : List LogEntry) (c : Capability) : List LogEntry :=
  log.filter fun e => e.capability = c

/-- The last registration that asked to be the default, or else the first one. -/
def standing (log : List LogEntry) : Option LogEntry :=
  (log.filter LogEntry.asDefault).getLast?.or log.head?

/-- **A registry and its log.** -/
structure History where
  registry : ServiceRegistry := {}
  log : List LogEntry := []

namespace History

/-- What a call makes of a registry and its log. -/
def act (h : History) : Call → History
  | .register c s id asDefault =>
    match h.registry.register c s id asDefault with
    | (registry, .ok ()) => ⟨registry, h.log ++ [⟨c, s, id, asDefault⟩]⟩
    | (registry, .error _) => { h with registry }
  | .clear => {}

/-- A new registry after some calls. -/
def run (calls : List Call) : History := calls.foldl act {}

section Act
variable {h : History} {c : Capability} {s : Service} {id : Option String} {asDefault : Bool}
  {r : ServiceRegistry}

theorem act_of_ok (hr : h.registry.register c s id asDefault = (r, .ok ())) :
    h.act (.register c s id asDefault) = ⟨r, h.log ++ [⟨c, s, id, asDefault⟩]⟩ := by
  rw [act, hr]

theorem act_of_error {e : Error} (hr : h.registry.register c s id asDefault = (r, .error e)) :
    h.act (.register c s id asDefault) = { h with registry := r } := by
  rw [act, hr]

end Act

end History

theorem logged_concat (log : List LogEntry) (e : LogEntry) (c : Capability) :
    logged (log ++ [e]) c = if e.capability = c then logged log c ++ [e] else logged log c := by
  unfold logged
  by_cases h : e.capability = c
  · simp [h]
  · simp [h]

theorem standing_concat (log : List LogEntry) (e : LogEntry) :
    standing (log ++ [e]) =
      if e.asDefault = true ∨ standing log = none then some e else standing log := by
  unfold standing
  by_cases h : e.asDefault = true
  · simp [h]
  · cases log <;> simp [h]

theorem standing_eq_none {log : List LogEntry} : standing log = none ↔ log = [] := by
  unfold standing
  cases log <;> simp

/-- The only element with an image that no two elements have. -/
theorem toList_find?_of_nodup {α β : Type} [DecidableEq β] {f : α → Option β} {l : List α}
    (h : (l.filterMap f).Nodup) (k : β) :
    (l.find? fun a => f a = some k).toList = l.filter fun a => f a = some k := by
  induction l with
  | nil => rfl
  | cons a l ih =>
    by_cases ha : f a = some k
    · rw [List.filterMap_cons_some ha] at h
      -- no other element has the image, so nothing is left of the rest
      have hrest : (l.filter fun a => f a = some k) = [] := by
        refine List.filter_eq_nil_iff.mpr fun b hb hk => ?_
        exact (List.nodup_cons.mp h).1 (List.mem_filterMap.mpr ⟨b, hb, by simpa using hk⟩)
      simp [ha, hrest]
    · have hl : (l.filterMap f).Nodup := by
        cases hf : f a with
        | none => rwa [List.filterMap_cons_none hf] at h
        | some j =>
          rw [List.filterMap_cons_some hf] at h
          exact (List.nodup_cons.mp h).2
      simpa [ha] using ih hl

namespace History

/-- **A registry is as its log says.** -/
structure Described (h : History) : Prop where
  entries : ∀ c, h.registry.entries c =
    (logged h.log c).map fun e => ⟨e.service, proper e.id⟩
  default? : ∀ c, h.registry.default? c = (standing (logged h.log c)).map LogEntry.service
  ids : ∀ c, ((logged h.log c).filterMap fun e => proper e.id).Nodup

theorem described_new : ({} : History).Described where
  entries _ := rfl
  default? _ := rfl
  ids _ := List.nodup_nil

theorem Described.used_iff {h : History} (hd : h.Described) {c : Capability} {k : String} :
    h.registry.Used c k ↔ ∃ e ∈ logged h.log c, proper e.id = some k := by
  unfold Used
  rw [hd.entries]
  simp

/-- A registration is logged where it is made. -/
theorem Described.append {h : History} (hd : h.Described) {c : Capability} {s : Service}
    {id : Option String} {asDefault : Bool} {r' : ServiceRegistry}
    (hfree : ∀ k, proper id = some k → ¬ h.registry.Used c k)
    (hentries : ∀ c', r'.entries c' =
      if c = c' then h.registry.entries c ++ [⟨s, proper id⟩] else h.registry.entries c')
    (hdefault : ∀ c', r'.default? c' =
      if c = c' ∧ (asDefault = true ∨ h.registry.default? c = none) then some s
      else h.registry.default? c') :
    Described ⟨r', h.log ++ [⟨c, s, id, asDefault⟩]⟩ where
  entries c' := by
    rw [hentries, logged_concat, hd.entries, hd.entries]
    by_cases hc : c = c'
    · rw [if_pos hc, if_pos hc, List.map_append, hc]
      rfl
    · rw [if_neg hc, if_neg hc]
  default? c' := by
    rw [hdefault, logged_concat]
    by_cases hc : c = c'
    · have hnone : h.registry.default? c = none ↔ standing (logged h.log c') = none := by
        rw [hd.default?, hc, Option.map_eq_none_iff]
      rw [if_pos hc, standing_concat]
      by_cases hnew : asDefault = true ∨ standing (logged h.log c') = none
      · rw [if_pos hnew, if_pos ⟨hc, hnew.imp_right hnone.mpr⟩]
        rfl
      · rw [if_neg hnew, if_neg fun hcn => hnew (hcn.2.imp_right hnone.mp)]
        exact hd.default? c'
    · rw [if_neg hc, if_neg fun hcn => hc hcn.1]
      exact hd.default? c'
  ids c' := by
    rw [logged_concat]
    by_cases hc : c = c'
    · rw [if_pos hc, List.filterMap_append]
      subst hc
      refine List.nodup_append.mpr ⟨hd.ids c, ?_, ?_⟩
      · cases hid : proper id <;> simp [hid]
      · -- the identifier was not taken, so it is new in the log as well
        rintro k hk j hj rfl
        obtain ⟨e, he, hek⟩ := List.mem_filterMap.mp hk
        have hid : proper id = some k := by simpa using hj
        exact hfree k hid (hd.used_iff.mpr ⟨e, he, hek⟩)
    · rw [if_neg hc]
      exact hd.ids c'

/-- One call keeps it. -/
theorem Described.act {h : History} (hd : h.Described) (call : Call) : (h.act call).Described := by
  cases call with
  | clear => exact described_new
  | register c s id asDefault =>
    rcases register_cases h.registry c s id asDefault with
      ⟨-, hr⟩ | ⟨-, k, -, -, hr⟩ | ⟨-, hfree, r', hr, hentries, hdefault⟩
    · rw [act_of_error hr]
      exact hd
    · rw [act_of_error hr]
      exact hd
    · rw [act_of_ok hr]
      exact hd.append hfree hentries hdefault

/-- A run keeps it. -/
theorem described_run (calls : List Call) : (run calls).Described :=
  List.foldlRecOn calls History.act described_new fun _ h call _ => h.act call

/-! ### What the log tells -/

section Described
variable {h : History} (hd : h.Described)
include hd

theorem Described.free_iff {c : Capability} {id : Option String} :
    (∀ k, proper id = some k → ¬ h.registry.Used c k) ↔
      id = none ∨ id = some "" ∨ ∀ e ∈ logged h.log c, e.id ≠ id := by
  cases id with
  | none => simp [proper]
  | some k =>
    by_cases hk : k = ""
    · simp [proper, hk]
    · simp [proper_eq_some, hd.used_iff, hk]

theorem Described.register_ok_iff (c : Capability) (s : Service) (id : Option String)
    (asDefault : Bool) : (h.registry.register c s id asDefault).2 = .ok () ↔
      s.offers c = true ∧ (id = none ∨ id = some "" ∨ ∀ e ∈ logged h.log c, e.id ≠ id) := by
  rw [← hd.free_iff]
  rcases register_cases h.registry c s id asDefault with
    ⟨hoffers, hr⟩ | ⟨-, k, hid, hused, hr⟩ | ⟨hoffers, hfree, r', hr, -, -⟩
  · simp [hr, hoffers]
  · simpa [hr] using fun _ => ⟨k, hid, hused⟩
  · simpa [hr, hoffers] using hfree

theorem Described.services_eq (c : Capability) :
    h.registry.services c = (logged h.log c).map LogEntry.service := by
  rw [services, hd.entries, List.map_map]
  rfl

theorem Described.keyed?_eq (c : Capability) {k : String} (hk : k ≠ "") :
    (h.registry.keyed? c (some k)).toList =
      ((logged h.log c).filter fun e => e.id = some k).map LogEntry.service := by
  have hkey : ∀ id : Option String, proper id = some k ↔ id = some k := by
    simp [proper_eq_some, hk]
  have hfind := toList_find?_of_nodup (hd.ids c) k
  have hregistered : h.registry.keyed? c (some k) =
      ((logged h.log c).find? fun e => proper e.id = some k).map LogEntry.service := by
    rw [keyed?, hd.entries, List.find?_map, Option.map_map]
    simp only [Function.comp_def, beq_eq_decide]
  rw [hregistered, Option.toList_map, hfind]
  simp only [hkey]

theorem Described.default?_eq_none (c : Capability) :
    h.registry.default? c = none ↔ logged h.log c = [] := by
  rw [hd.default?, Option.map_eq_none_iff, standing_eq_none]

end Described

/-- A registration that is refused leaves the registry as it was. -/
theorem register_of_error {r : ServiceRegistry} {c : Capability} {s : Service}
    {id : Option String} {asDefault : Bool} {e : Error}
    (h : (r.register c s id asDefault).2 = .error e) : (r.register c s id asDefault).1 = r := by
  rcases register_cases r c s id asDefault with
    ⟨-, hr⟩ | ⟨-, k, -, -, hr⟩ | ⟨-, -, r', hr, -, -⟩
  · rw [hr]
  · rw [hr]
  · rw [hr] at h
    cases h

/-- **The look-ups of a registry are told by its log.** Registering succeeds exactly for a service
with the capability and an identifier that is empty or not in the log for it. The services of a
capability are those of the log, in order; under an identifier is the one service that was logged
under it; and the default is the last one that asked to be it, or else the first one. What is
refused leaves the registry as it was. -/
theorem lookups_of_log (calls : List Call) :
    (∀ c s id asDefault, ((run calls).registry.register c s id asDefault).2 = .ok () ↔
      s.offers c = true ∧
        (id = none ∨ id = some "" ∨ ∀ e ∈ logged (run calls).log c, e.id ≠ id)) ∧
    (∀ c, (run calls).registry.services c = (logged (run calls).log c).map LogEntry.service) ∧
    (∀ c k, k ≠ "" → ((run calls).registry.keyed? c (some k)).toList =
      ((logged (run calls).log c).filter fun e => e.id = some k).map LogEntry.service) ∧
    (∀ c, (run calls).registry.default? c =
      (standing (logged (run calls).log c)).map LogEntry.service) ∧
    (∀ c, (run calls).registry.default? c = none ↔ logged (run calls).log c = []) ∧
    ∀ c s id asDefault e, ((run calls).registry.register c s id asDefault).2 = .error e →
      ((run calls).registry.register c s id asDefault).1 = (run calls).registry := by
  have hd := described_run calls
  exact ⟨hd.register_ok_iff, hd.services_eq, fun c k hk => hd.keyed?_eq c hk, hd.default?,
    hd.default?_eq_none, fun c s id asDefault e he => register_of_error he⟩

end History

end Stepwise.ServiceRegistry
