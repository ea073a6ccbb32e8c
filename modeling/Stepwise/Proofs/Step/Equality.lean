import Mathlib.Data.List.Basic
import Stepwise.Flow.Validation

/-!
# Equal steps

Two steps are equal when their parts are, names counting as equal when their keys are. So what
equality looks at is a row of plain data, the *signature* (`Step.same_iff`), and equality of flows
is that of their names, their goals and the signatures of their steps (`Flow.same_iff`). Dependencies
and violations can be told from the signatures (`dependsOn_congr`, `referenceViolation?_congr`,
`messageViolation?_congr`, `passthroughViolation?_congr`).
-/

namespace Stepwise

theorem Scalar.list_beq_iff {ns ms : List Scalar} :
    (ns == ms) = true ↔ ns.map Scalar.key = ms.map Scalar.key := by
  induction ns generalizing ms with
  | nil => cases ms <;> simp
  | cons n ns ih =>
    cases ms with
    | nil => simp
    | cons m ms => simp [ih, Scalar.beq_iff_key_eq]

theorem Scalar.option_list_beq_iff {ns ms : Option (List Scalar)} :
    (ns == ms) = true ↔ ns.map (List.map Scalar.key) = ms.map (List.map Scalar.key) := by
  cases ns <;> cases ms <;> simp [Scalar.list_beq_iff]

namespace Step

/-- **What equality of steps looks at.** -/
structure Signature where
  kind : Kind
  goal : Option Text
  requires : List Scalar.Key
  provides : List Scalar.Key
  passthrough : List Scalar.Key
  completion : Completion
  startingMessage : Option Text
  transitionMessage : Option Text
  plugins : Option (List Scalar.Key)

/-- The signature of a step. -/
def signature (s : Step) : Signature where
  kind := s.kind
  goal := s.goal
  requires := s.requires.map Scalar.key
  provides := s.provides.map Scalar.key
  passthrough := s.passthrough.map Scalar.key
  completion := s.completion
  startingMessage := s.startingMessage
  transitionMessage := s.transitionMessage
  plugins := s.plugins.map (List.map Scalar.key)

theorem same_iff {s t : Step} : s.same t = true ↔ s.signature = t.signature := by
  simp only [same, signature, Bool.and_eq_true, beq_iff_eq, Scalar.list_beq_iff,
    Scalar.option_list_beq_iff, Signature.mk.injEq, and_assoc]

variable {s t s' t' : Step}

theorem dependsOn_iff : s.dependsOn t = true ↔
    ∃ k ∈ s.requires.map Scalar.key, k ∈ t.provides.map Scalar.key := by
  simp only [dependsOn, List.any_eq_true, List.contains_iff_exists_mem_beq,
    Scalar.beq_iff_key_eq, List.mem_map]
  constructor
  · rintro ⟨v, hv, w, hw, he⟩
    exact ⟨v.key, ⟨v, hv, rfl⟩, w, hw, he.symm⟩
  · rintro ⟨_, ⟨v, hv, rfl⟩, w, hw, he⟩
    exact ⟨v, hv, w, hw, he.symm⟩

theorem dependsOn_congr (hs : s.signature = s'.signature) (ht : t.signature = t'.signature) :
    s.dependsOn t = s'.dependsOn t' := by
  have hr : s.requires.map Scalar.key = s'.requires.map Scalar.key :=
    congrArg Signature.requires hs
  have hp : t.provides.map Scalar.key = t'.provides.map Scalar.key :=
    congrArg Signature.provides ht
  rw [Bool.eq_iff_iff, dependsOn_iff, dependsOn_iff, hr, hp]

theorem isEmpty_of_map_eq {α β : Type} {f : α → β} {xs ys : List α} (h : xs.map f = ys.map f) :
    xs.isEmpty = ys.isEmpty := by
  rw [← List.isEmpty_map (f := f), h, List.isEmpty_map]

/-! ### Violations -/

theorem referenceViolation?_congr (h : s.signature = t.signature) :
    s.referenceViolation? = t.referenceViolation? := by
  have hk : s.kind = t.kind := congrArg Signature.kind h
  have hr := isEmpty_of_map_eq (congrArg Signature.requires h)
  have hp := isEmpty_of_map_eq (congrArg Signature.provides h)
  have hl : (s.plugins.getD []).isEmpty = (t.plugins.getD []).isEmpty := by
    have hd : ∀ o : Option (List Scalar),
        (o.map (List.map Scalar.key)).getD [] = (o.getD []).map Scalar.key := by
      intro o; cases o <;> rfl
    have hm := congrArg (fun sig : Signature => sig.plugins.getD []) h
    exact isEmpty_of_map_eq ((hd _).symm.trans (hm.trans (hd _)))
  unfold referenceViolation?
  rw [hk, hr, hp, hl]

theorem messageViolation?_congr (h : s.signature = t.signature) :
    s.messageViolation? = t.messageViolation? := by
  have hg : s.goal = t.goal := congrArg Signature.goal h
  have hc : s.completion = t.completion := congrArg Signature.completion h
  have hm : s.startingMessage = t.startingMessage := congrArg Signature.startingMessage h
  unfold messageViolation?
  rw [hg, hc, hm]

theorem passthroughViolation?_congr (h : s.signature = t.signature) :
    s.passthroughViolation? = t.passthroughViolation? := by
  have hg : s.goal = t.goal := congrArg Signature.goal h
  have hc : s.completion = t.completion := congrArg Signature.completion h
  have hp := isEmpty_of_map_eq (congrArg Signature.passthrough h)
  unfold passthroughViolation?
  rw [hg, hc, hp]

end Step

namespace Flow

theorem zip_all_same_iff {ss ts : List Step} (h : ss.length = ts.length) :
    (ss.zip ts).all (fun (s, t) => s.same t) = true ↔
      ss.map Step.signature = ts.map Step.signature := by
  induction ss generalizing ts with
  | nil => cases ts with
    | nil => simp
    | cons t ts => cases h
  | cons s ss ih => cases ts with
    | nil => cases h
    | cons t ts => simp [Step.same_iff, ih (Nat.succ.inj h)]

theorem same_iff {f g : Flow} : f.same g = true ↔
    f.name = g.name ∧ f.goal = g.goal ∧
      f.steps.map Step.signature = g.steps.map Step.signature := by
  simp only [same, Bool.and_eq_true, beq_iff_eq, and_assoc]
  refine and_congr_right fun _ => and_congr_right fun _ => ?_
  constructor
  · rintro ⟨hl, h⟩; exact (zip_all_same_iff hl).mp h
  · intro h
    have hl : f.steps.length = g.steps.length := by simpa using congrArg List.length h
    exact ⟨hl, (zip_all_same_iff hl).mpr h⟩

theorem same_symm {f g : Flow} (h : f.same g = true) : g.same f = true := by
  obtain ⟨hname, hgoal, hsig⟩ := same_iff.mp h
  exact same_iff.mpr ⟨hname.symm, hgoal.symm, hsig.symm⟩

theorem findSome?_congr {β : Type} {v : Step → Option β}
    (hv : ∀ {s t : Step}, s.signature = t.signature → v s = v t) {ss ts : List Step}
    (h : ss.map Step.signature = ts.map Step.signature) : ss.findSome? v = ts.findSome? v := by
  induction ss generalizing ts with
  | nil => rw [List.map_nil, eq_comm, List.map_eq_nil_iff] at h; rw [h]
  | cons s ss ih =>
    cases ts with
    | nil => cases h
    | cons t ts =>
      obtain ⟨hst, hrest⟩ := List.cons.inj h
      rw [List.findSome?_cons, List.findSome?_cons, hv hst, ih hrest]

end Flow

end Stepwise
