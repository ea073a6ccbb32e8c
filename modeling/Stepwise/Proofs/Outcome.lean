import Mathlib.Data.List.Forall2

/-!
# Outcomes of searches and computations

A search or a computation that goes over a row comes to an end at the first element without a property
(`FirstWithout`), which is told by the row alone.

* `findSome?_eq_some_iff_first`: what a search for violations stops at.
* `bind_eq_ok_iff`, `bind_eq_error_iff`: what two computations, one after the other, give and fail
  with.
* `mapM_eq_ok_iff`, `mapM_eq_error_iff_first`: the same of a computation over a row.
-/

namespace Stepwise

/-- **The first element of a row without a property.** -/
def FirstWithout {α : Type} (P : α → Prop) (l : List α) (a : α) : Prop :=
  ∃ before after, l = before ++ a :: after ∧ ¬ P a ∧ ∀ b ∈ before, P b

theorem not_firstWithout_nil {α : Type} {P : α → Prop} {a : α} : ¬ FirstWithout P [] a := by
  rintro ⟨before, after, hsplit, -⟩
  cases before <;> cases hsplit

theorem firstWithout_cons {α : Type} {P : α → Prop} {a b : α} {l : List α} :
    FirstWithout P (a :: l) b ↔ ¬ P a ∧ b = a ∨ P a ∧ FirstWithout P l b := by
  constructor
  · rintro ⟨before, after, hsplit, hb, hbefore⟩
    cases before with
    | nil =>
      obtain ⟨rfl, -⟩ := List.cons.inj hsplit
      exact Or.inl ⟨hb, rfl⟩
    | cons c before =>
      obtain ⟨rfl, hl⟩ := List.cons.inj hsplit
      obtain ⟨hc, hrest⟩ := List.forall_mem_cons.mp hbefore
      exact Or.inr ⟨hc, before, after, hl, hb, hrest⟩
  · rintro (⟨ha, rfl⟩ | ⟨ha, before, after, rfl, hb, hbefore⟩)
    · exact ⟨[], l, rfl, ha, fun _ h => absurd h List.not_mem_nil⟩
    · exact ⟨a :: before, after, rfl, hb, List.forall_mem_cons.mpr ⟨ha, hbefore⟩⟩

theorem FirstWithout.not {α : Type} {P : α → Prop} {l : List α} {a : α}
    (h : FirstWithout P l a) : ¬ P a := by
  obtain ⟨-, -, -, hnot, -⟩ := h
  exact hnot

theorem FirstWithout.mem {α : Type} {P : α → Prop} {l : List α} {a : α}
    (h : FirstWithout P l a) : a ∈ l := by
  obtain ⟨before, after, rfl, -, -⟩ := h
  exact List.mem_append_right before List.mem_cons_self

theorem FirstWithout.congr {α : Type} {P Q : α → Prop} {l : List α} {a : α}
    (h : ∀ b ∈ l, P b ↔ Q b) : FirstWithout P l a ↔ FirstWithout Q l a := by
  refine exists_congr fun before => exists_congr fun after => and_congr_right ?_
  rintro rfl
  have ha : P a ↔ Q a := h a (List.mem_append_right before List.mem_cons_self)
  have hbefore : ∀ b ∈ before, P b ↔ Q b := fun b hb => h b (List.mem_append_left _ hb)
  exact and_congr (not_congr ha) (forall₂_congr hbefore)

/-- In a row whose elements do not all have a property one of them is the first without it. -/
theorem exists_firstWithout {α : Type} (P : α → Prop) (l : List α) :
    (∀ a ∈ l, P a) ∨ ∃ a, FirstWithout P l a := by
  induction l with
  | nil => exact Or.inl fun _ h => absurd h List.not_mem_nil
  | cons a l ih =>
    by_cases ha : P a
    · rcases ih with hall | ⟨b, hb⟩
      · exact Or.inl (List.forall_mem_cons.mpr ⟨ha, hall⟩)
      · exact Or.inr ⟨b, firstWithout_cons.mpr (Or.inr ⟨ha, hb⟩)⟩
    · exact Or.inr ⟨a, firstWithout_cons.mpr (Or.inl ⟨ha, rfl⟩)⟩

/-! ### Searches -/

section Search
variable {α β : Type} {P : α → Prop} {g : α → Option β} (hg : ∀ a, g a = none ↔ P a) {l : List α}
include hg

theorem findSome?_eq_none_iff_forall : l.findSome? g = none ↔ ∀ a ∈ l, P a := by
  rw [List.findSome?_eq_none_iff]
  exact forall₂_congr fun a _ => hg a

/-- A search stops at the first element without the property. -/
theorem findSome?_eq_some_iff_first {b : β} :
    l.findSome? g = some b ↔ ∃ a, FirstWithout P l a ∧ g a = some b := by
  rw [List.findSome?_eq_some_iff]
  constructor
  · rintro ⟨before, a, after, hl, ha, hbefore⟩
    have hnot : ¬ P a := fun hP => by rw [(hg a).mpr hP] at ha; cases ha
    exact ⟨a, ⟨before, after, hl, hnot, fun b hb => (hg b).mp (hbefore b hb)⟩, ha⟩
  · rintro ⟨a, ⟨before, after, hl, -, hbefore⟩, ha⟩
    exact ⟨before, a, after, hl, ha, fun b hb => (hg b).mpr (hbefore b hb)⟩

end Search

theorem findSome?_cons_eq_orElse {α β : Type} (g : α → Option β) (a : α) (l : List α) :
    (a :: l).findSome? g = (g a <|> l.findSome? g) := by
  rw [List.findSome?_cons]
  cases g a <;> rfl

theorem FirstWithout.unique {α : Type} {P : α → Prop} {l : List α} {a b : α}
    (ha : FirstWithout P l a) (hb : FirstWithout P l b) : a = b := by
  classical
  have hg : ∀ a, (if P a then none else some a) = none ↔ P a := by simp
  have hsearch : ∀ {a}, FirstWithout P l a →
      l.findSome? (fun a => if P a then none else some a) = some a := fun {a} h =>
    (findSome?_eq_some_iff_first hg).mpr ⟨a, h, if_neg h.not⟩
  exact Option.some.inj ((hsearch ha).symm.trans (hsearch hb))

/-! ### Computations that may fail -/

section Computation
variable {ε α β : Type}

theorem bind_eq_ok_iff {x : Except ε α} {f : α → Except ε β} {b : β} :
    x >>= f = .ok b ↔ ∃ a, x = .ok a ∧ f a = .ok b := by
  constructor
  · intro h
    cases x with
    | error e => cases h
    | ok a => exact ⟨a, rfl, h⟩
  · rintro ⟨a, rfl, h⟩
    exact h

theorem bind_eq_error_iff {x : Except ε α} {f : α → Except ε β} {e : ε} :
    x >>= f = .error e ↔ x = .error e ∨ ∃ a, x = .ok a ∧ f a = .error e := by
  constructor
  · intro h
    cases x with
    | error e' =>
      cases h
      exact Or.inl rfl
    | ok a => exact Or.inr ⟨a, rfl, h⟩
  · rintro (rfl | ⟨a, rfl, h⟩)
    · rfl
    · exact h

theorem mapError_eq_ok_iff {δ : Type} {x : Except ε α} {f : ε → δ} {a : α} :
    x.mapError f = .ok a ↔ x = .ok a := by
  rcases x with e | b <;> simp [Except.mapError]

theorem mapError_eq_error_iff {δ : Type} {x : Except ε α} {f : ε → δ} {d : δ} :
    x.mapError f = .error d ↔ ∃ e, x = .error e ∧ f e = d := by
  rcases x with e | b <;> simp [Except.mapError]

variable {g : α → Except ε β}

theorem mapM_eq_ok_iff {l : List α} {bs : List β} :
    l.mapM g = .ok bs ↔ List.Forall₂ (fun a b => g a = .ok b) l bs := by
  induction l generalizing bs with
  | nil =>
    rw [List.mapM_nil, List.forall₂_nil_left_iff]
    exact ⟨fun h => (Except.ok.inj h).symm, fun h => congrArg Except.ok h.symm⟩
  | cons a l ih =>
    rw [List.mapM_cons, bind_eq_ok_iff, List.forall₂_cons_left_iff]
    refine exists_congr fun b => ?_
    rw [bind_eq_ok_iff]
    constructor
    · rintro ⟨hb, rest, hrest, h⟩
      exact ⟨rest, hb, ih.mp hrest, (Except.ok.inj h).symm⟩
    · rintro ⟨rest, hb, hrest, rfl⟩
      exact ⟨hb, rest, ih.mpr hrest, rfl⟩

/-- A computation over a row fails with what the first element fails with of which it gives
nothing. -/
theorem mapM_eq_error_iff_first {l : List α} {e : ε} :
    l.mapM g = .error e ↔ ∃ a, FirstWithout (fun a => ∃ b, g a = .ok b) l a ∧ g a = .error e := by
  induction l with
  | nil =>
    rw [List.mapM_nil]
    exact iff_of_false (fun h => by cases h) fun ⟨a, ha, _⟩ => not_firstWithout_nil ha
  | cons a l ih =>
    rw [List.mapM_cons, bind_eq_error_iff]
    cases ha : g a with
    | error e' =>
      have hnot : ¬ ∃ b, g a = .ok b := by simp [ha]
      constructor
      · rintro (h | ⟨b, h, -⟩)
        · exact ⟨a, firstWithout_cons.mpr (Or.inl ⟨hnot, rfl⟩), ha.trans h⟩
        · cases h
      · rintro ⟨b, hb, he⟩
        rcases firstWithout_cons.mp hb with ⟨-, rfl⟩ | ⟨hsome, -⟩
        · exact Or.inl (ha.symm.trans he)
        · exact absurd hsome hnot
    | ok b =>
      have hsome : ∃ b, g a = .ok b := ⟨b, ha⟩
      constructor
      · rintro (h | ⟨b', -, h⟩)
        · cases h
        · rcases bind_eq_error_iff.mp h with h | ⟨bs, -, h⟩
          · obtain ⟨c, hc, he⟩ := ih.mp h
            exact ⟨c, firstWithout_cons.mpr (Or.inr ⟨hsome, hc⟩), he⟩
          · cases h
      · rintro ⟨c, hc, he⟩
        rcases firstWithout_cons.mp hc with ⟨hnot, -⟩ | ⟨-, hc⟩
        · exact absurd hsome hnot
        · exact Or.inr ⟨b, rfl, bind_eq_error_iff.mpr (Or.inl (ih.mpr ⟨c, hc, he⟩))⟩

end Computation

end Stepwise
