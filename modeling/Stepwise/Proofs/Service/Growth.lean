import Stepwise.Proofs.Service.Choice

/-!
# Selecting from a registry that grows

As long as a registry is not cleared, its log only grows at the end. What meets a preference then
still does, since identifiers are taken once and the first service with a model stays the first one,
and a default stays until another service is registered as the default.

* `exists_registered_since`: the log after further registrations is the log before with some entries
  behind it.
* `Meets.append`, `standing_append`: what these entries leave as it was.
* `Carried`: how a choice carries over to the log that has grown. What is selected does
  (`Selected.exists_carried`), by whether a preference is met in the log that has grown.
* `select_grown`: so a selection that succeeded succeeds again, and its choice carries over.
-/

namespace Stepwise

/-! ### The log of a registry that grows -/

namespace ServiceRegistry.History

/-- The call that an entry of the log tells of. -/
def callOf (e : LogEntry) : Call := .register e.capability e.service e.id e.asDefault

theorem log_act {call : Call} (h : call ≠ .clear) (hist : History) :
    (hist.act call).log = hist.log ∨ ∃ e, callOf e = call ∧ (hist.act call).log = hist.log ++ [e] := by
  cases call with
  | clear => exact absurd rfl h
  | register c s id asDefault =>
    cases hr : hist.registry.register c s id asDefault with
    | mk r answer =>
      cases answer with
      | error e =>
        rw [act_of_error hr]
        exact Or.inl rfl
      | ok u =>
        rw [act_of_ok hr]
        exact Or.inr ⟨⟨c, s, id, asDefault⟩, rfl, rfl⟩

theorem exists_log_foldl {more : List Call} (h : ∀ call ∈ more, call ≠ .clear) (hist : History) :
    ∃ new, (more.foldl act hist).log = hist.log ++ new ∧ ∀ e ∈ new, callOf e ∈ more := by
  induction more generalizing hist with
  | nil => exact ⟨[], (List.append_nil _).symm, nofun⟩
  | cons call more ih =>
    obtain ⟨hcall, hmore⟩ := List.forall_mem_cons.mp h
    obtain ⟨new, hlog, hnew⟩ := ih hmore (hist.act call)
    rw [List.foldl_cons]
    rcases log_act hcall hist with hsame | ⟨e, he, hone⟩
    · refine ⟨new, by rw [hlog, hsame], fun d hd => ?_⟩
      exact List.mem_cons_of_mem _ (hnew d hd)
    · refine ⟨e :: new, by rw [hlog, hone, List.append_assoc, List.singleton_append], ?_⟩
      intro d hd
      rcases List.mem_cons.mp hd with rfl | hd
      · rw [he]
        exact List.mem_cons_self
      · exact List.mem_cons_of_mem _ (hnew d hd)

/-- **Registering only adds to the log.** -/
theorem exists_registered_since (calls : List Call) {more : List Call}
    (h : ∀ call ∈ more, call ≠ .clear) :
    ∃ new, (run (calls ++ more)).log = (run calls).log ++ new ∧ ∀ e ∈ new, callOf e ∈ more := by
  unfold run
  rw [List.foldl_append]
  exact exists_log_foldl h _

end ServiceRegistry.History

namespace ServiceRegistry

theorem logged_append (log new : List LogEntry) (c : Capability) :
    logged (log ++ new) c = logged log c ++ logged new c :=
  List.filter_append ..

/-- The default stays unless an entry behind asks to be it. -/
theorem standing_append {log new : List LogEntry} {e : LogEntry} (h : standing log = some e)
    (hnew : ∀ d ∈ new, d.asDefault = false) : standing (log ++ new) = some e := by
  have hnone : new.filter LogEntry.asDefault = [] := by
    refine List.filter_eq_nil_iff.mpr fun d hd => ?_
    rw [hnew d hd]
    exact Bool.false_ne_true
  have hne : log ≠ [] := fun hnil => by
    rw [standing_eq_none.mpr hnil] at h
    cases h
  unfold standing at h ⊢
  rw [List.filter_append, hnone, List.append_nil, List.head?_append_of_ne_nil _ hne]
  exact h

theorem exists_standing_append {log : List LogEntry} {e : LogEntry} (h : standing log = some e)
    (new : List LogEntry) : ∃ d, standing (log ++ new) = some d := by
  refine Option.ne_none_iff_exists'.mp fun hnone => ?_
  have hnil : log = [] := (List.append_eq_nil_iff.mp (standing_eq_none.mp hnone)).1
  rw [standing_eq_none.mpr hnil] at h
  cases h

end ServiceRegistry

namespace Selection

open ServiceRegistry

/-! ### What stays met -/

theorem Meets.append {log : List LogEntry} {p : ModelSettings} {s : Service} (h : Meets log p s)
    (new : List LogEntry) : Meets (log ++ new) p s := by
  cases h with
  | byServiceId given serviceId mem id =>
    exact .byServiceId given serviceId (List.mem_append_left new mem) id
  | @byModelId m before after e given serviceId modelId split model first =>
    have hsplit : log ++ new = before ++ e :: (after ++ new) := by
      rw [split, List.append_assoc, List.cons_append]
    exact .byModelId given serviceId modelId hsplit model first

theorem Meets.unique {h : History} (hd : h.Described) {c : Capability} {p : ModelSettings}
    {s t : Service} (hs : Meets (logged h.log c) p s) (ht : Meets (logged h.log c) p t) : s = t := by
  obtain ⟨note, hmatch⟩ := (match?_iff hd).mpr hs
  obtain ⟨note', hmatch'⟩ := (match?_iff hd).mpr ht
  rw [hmatch] at hmatch'
  cases hmatch'
  rfl

section Split
variable {α : Type} {before after before' after' : List α} {a a' : α}
  (h : before ++ a :: after = before' ++ a' :: after')
include h

/-- The first element with a property stands no further back than any other one. -/
theorem length_le_of_first {P : α → Prop} (ha : P a) (hfirst : ∀ b ∈ before', ¬ P b) :
    before'.length ≤ before.length := by
  by_contra hlt
  have hget : before'[before.length]? = some a := by
    have hsplit : (before ++ a :: after)[before.length]? = some a := by simp
    rw [h, List.getElem?_append_left (by omega)] at hsplit
    exact hsplit
  exact hfirst a (List.mem_of_getElem? hget) ha

theorem eq_of_length_eq (hlen : before'.length = before.length) : a' = a := by
  obtain ⟨-, hrest⟩ := List.append_inj h hlen.symm
  exact (List.cons.inj hrest).1.symm

end Split

/-! ### What is selected then -/

section Grown
variable {log : List LogEntry} {ps : List ModelSettings} {choice : Choice}

/-- What is chosen by a preference that asks for a service in particular meets it. -/
theorem Selected.of_qualified (h : Selected log ps choice) {i : ℕ} {p : ModelSettings}
    (hi : choice.preference = some (i, p)) (hp : Qualified p) :
    ∃ before after, ps = before ++ p :: after ∧ before.length = i ∧
      Meets log p choice.service := by
  cases h with
  | preferred split missed met =>
    cases hi
    exact ⟨_, _, split, rfl, met⟩
  | fallback missed split qualified unqualified default =>
    cases hi
    exact absurd hp unqualified
  | plain empty default => cases hi

/-- If a preference is met, the first one that is met is the one to choose by. -/
theorem Selected.of_meets {p : ModelSettings} {s : Service} (hp : p ∈ ps) (hs : Meets log p s) :
    ∃ before q after t, ps = before ++ q :: after ∧ Meets log q t ∧
      (∀ b ∈ before, ∀ u, ¬ Meets log b u) ∧ Selected log ps ⟨t, some (before.length, q)⟩ := by
  rcases exists_first (fun p => ∃ s, Meets log p s) ps with
    hnone | ⟨before, q, after, hsplit, ⟨t, ht⟩, hfirst⟩
  · exact absurd ⟨s, hs⟩ (hnone p hp)
  · have hmissed : ∀ b ∈ before, ∀ u, ¬ Meets log b u := fun b hb => not_exists.mp (hfirst b hb)
    exact ⟨before, q, after, t, hsplit, ht, hmissed, .preferred hsplit hmissed ht⟩

/-- If none is met, the default is chosen as before, and it is the same service unless another one
was registered as the default. -/
theorem Selected.of_missed {new : List LogEntry} (h : Selected log ps choice)
    (hmissed : ∀ q ∈ ps, ∀ t, ¬ Meets (log ++ new) q t) :
    ∃ choice', Selected (log ++ new) ps choice' ∧
      ((∀ e ∈ new, e.asDefault = false) → choice' = choice) := by
  cases h with
  | preferred split missed met =>
    refine absurd (met.append new) (hmissed _ ?_ _)
    rw [split]
    exact List.mem_append_right _ List.mem_cons_self
  | fallback missed split qualified unqualified default =>
    obtain ⟨d, hd⟩ := exists_standing_append default new
    refine ⟨_, .fallback hmissed split qualified unqualified hd, fun hnew => ?_⟩
    rw [standing_append default hnew] at hd
    rw [Option.some.inj hd]
  | plain empty default =>
    obtain ⟨d, hd⟩ := exists_standing_append default new
    refine ⟨_, .plain empty hd, fun hnew => ?_⟩
    rw [standing_append default hnew] at hd
    rw [Option.some.inj hd]

end Grown

/-! ### How a choice carries over -/

/-- **How a choice carries over** to a log that has grown by some entries. What was chosen by a
preference that asks for a service in particular is now chosen by such a preference, which stands
further in front, or else chooses the same service. What was chosen as the default is chosen again,
unless a preference is met by now or an entry asks to be the default. -/
structure Carried (log new : List LogEntry) (ps : List ModelSettings) (choice choice' : Choice) :
    Prop where
  particular : ∀ i p, choice.preference = some (i, p) → Qualified p →
    ∃ j q, choice'.preference = some (j, q) ∧ ps[j]? = some q ∧ Qualified q ∧ j ≤ i ∧
      (j = i → choice'.service = choice.service)
  default : (∀ i p, choice.preference = some (i, p) → ¬ Qualified p) →
    choice' = choice ∨ (∃ q ∈ ps, Qualified q ∧ ∃ t, Meets log q t) ∨
      ∃ e ∈ new, e.asDefault = true

section Carried
variable {h : History} (hd : h.Described) {c : Capability} {log new : List LogEntry}
  (hlog : logged h.log c = log ++ new) {ps : List ModelSettings} {choice : Choice}
  (hs : Selected log ps choice)
include hd hlog hs

theorem Selected.carried_of_meets {p : ModelSettings} {s : Service} (hp : p ∈ ps)
    (hmet : Meets (log ++ new) p s) :
    ∃ choice', Selected (log ++ new) ps choice' ∧ Carried (log ++ new) new ps choice choice' := by
  obtain ⟨before, q, after, t, hsplit, hqt, hfirst, hselected⟩ := Selected.of_meets hp hmet
  have hget : ps[before.length]? = some q := by simp [hsplit]
  refine ⟨_, hselected, fun i p hi hqualified => ?_, fun _ => ?_⟩
  · obtain ⟨front, back, hplace, rfl, hchosen⟩ := hs.of_qualified hi hqualified
    have hkept := hchosen.append new
    have heq := hplace.symm.trans hsplit
    have hle : before.length ≤ front.length :=
      length_le_of_first heq ⟨_, hkept⟩ fun b hb => not_exists.mpr (hfirst b hb)
    refine ⟨before.length, q, rfl, hget, hqt.qualified, hle, fun hlen => ?_⟩
    rw [eq_of_length_eq heq hlen, ← hlog] at hqt
    rw [← hlog] at hkept
    exact Meets.unique hd hqt hkept
  · exact Or.inr (Or.inl ⟨q, List.mem_of_getElem? hget, hqt.qualified, t, hqt⟩)

omit hd hlog in
theorem Selected.carried_of_missed (hmissed : ∀ q ∈ ps, ∀ t, ¬ Meets (log ++ new) q t) :
    ∃ choice', Selected (log ++ new) ps choice' ∧ Carried (log ++ new) new ps choice choice' := by
  obtain ⟨choice', hselected, hsame⟩ := hs.of_missed hmissed
  refine ⟨choice', hselected, fun i p hi hqualified => ?_, fun _ => ?_⟩
  · obtain ⟨front, back, hplace, -, hchosen⟩ := hs.of_qualified hi hqualified
    have hp : p ∈ ps := by simp [hplace]
    exact absurd (hchosen.append new) (hmissed p hp _)
  · by_cases hasked : ∃ e ∈ new, e.asDefault = true
    · exact Or.inr (Or.inr hasked)
    · exact Or.inl (hsame fun e he => Bool.eq_false_iff.mpr fun h => hasked ⟨e, he, h⟩)

/-- **What is selected carries over.** -/
theorem Selected.exists_carried :
    ∃ choice', Selected (log ++ new) ps choice' ∧ Carried (log ++ new) new ps choice choice' := by
  by_cases hmet : ∃ p ∈ ps, ∃ s, Meets (log ++ new) p s
  · obtain ⟨p, hp, s, hps⟩ := hmet
    exact hs.carried_of_meets hd hlog hp hps
  · exact hs.carried_of_missed fun q hq t ht => hmet ⟨q, hq, t, ht⟩

end Carried

/-- **A selection is kept as the registry grows.** Where a selection succeeded, it succeeds behind
any further calls that register services, and its choice carries over to the log that has grown by
the entries of those calls that succeeded. -/
theorem select_grown (calls : List Call) {more : List Call} (hmore : ∀ call ∈ more, call ≠ .clear)
    {c : Capability} {ps : List ModelSettings} {choice : Choice} {note : Option Note}
    (hselect : select (History.run calls).registry c ps = .ok (choice, note)) :
    ∃ new, (History.run (calls ++ more)).log = (History.run calls).log ++ new ∧
      (∀ e ∈ new, History.callOf e ∈ more) ∧
      ∃ choice' note', select (History.run (calls ++ more)).registry c ps = .ok (choice', note') ∧
        Carried (logged (History.run (calls ++ more)).log c) (logged new c) ps choice choice' := by
  obtain ⟨new, hlog, hnew⟩ := History.exists_registered_since calls hmore
  have hd := History.described_run (calls ++ more)
  have hs : Selected (logged (History.run calls).log c) ps choice :=
    (select_ok_iff (History.described_run calls) choice).mp ⟨note, hselect⟩
  have hgrown : logged (History.run (calls ++ more)).log c =
      logged (History.run calls).log c ++ logged new c := by
    rw [hlog, logged_append]
  obtain ⟨choice', hselected, hcarried⟩ := hs.exists_carried hd hgrown
  rw [← hgrown] at hselected hcarried
  obtain ⟨note', hok⟩ := select_of_selected hd hselected
  exact ⟨new, hlog, hnew, choice', note', hok, hcarried⟩

/-- A service with a model. -/
def small : Service := ⟨"small", "Chat", [.chat], some "m"⟩

/-- Another one with the same model. -/
def large : Service := ⟨"large", "Chat", [.chat], some "m"⟩

/-- What was selected by a model stays selected where another service gets the model and becomes the
default. -/
theorem select_grown_model :
    (∀ call ∈ [Call.register .chat large none true, .register .text large none false],
      call ≠ .clear) ∧
    ∃ note, select (History.run [.register .chat small none false]).registry .chat
        [{}, { modelId := some "m" }] = .ok (⟨small, some (1, { modelId := some "m" })⟩, note) ∧
      ∃ choice' note', select (History.run ([.register .chat small none false] ++
          [.register .chat large none true, .register .text large none false])).registry .chat
            [{}, { modelId := some "m" }] = .ok (choice', note') ∧
        ∃ j q, choice'.preference = some (j, q) ∧ Qualified q ∧ j ≤ 1 ∧
          (j = 1 → choice'.service = small) := by
  have hmore : ∀ call ∈ [Call.register .chat large none true, .register .text large none false],
      call ≠ .clear := by simp
  have hselect : select (History.run [.register .chat small none false]).registry .chat
      [{}, { modelId := some "m" }] =
        .ok (⟨small, some (1, { modelId := some "m" })⟩, some (.byModelId .chat "m")) := rfl
  obtain ⟨new, -, -, choice', note', hok, hcarried⟩ :=
    select_grown [.register .chat small none false] hmore hselect
  obtain ⟨j, q, hj, -, hq, hle, hsame⟩ :=
    hcarried.particular 1 { modelId := some "m" } rfl (Or.inr (by decide))
  exact ⟨hmore, _, hselect, choice', note', hok, j, q, hj, hq, hle, hsame⟩

end Selection

end Stepwise
