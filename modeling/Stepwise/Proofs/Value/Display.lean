import Mathlib.Algebra.Group.Nat.Defs
import Mathlib.Data.Option.Basic
import Stepwise.Proofs.Outcome
import Stepwise.Value.Depth
import Stepwise.Value.Display

/-!
# What keeps values from being shown

A value is shown unless a value stands too deep in it (`Value.Nests`) or a whole number in it is too
long (`Value.HasLong`). Parts are shown one after the other, so what comes first in a value keeps it
from being shown (`Value.Hindered`).

* `hindrance?_eq_none_iff`: the search for a hindrance finds nothing exactly in what can be shown.
* `hindrance?_eq_some_iff`: else it finds what comes first.
-/

namespace Stepwise

open Value

/-- A whole number beyond the limit on digits. -/
def Scalar.IsLong (s : Scalar) : Prop := ∃ i, s = .int i ∧ Decimal.isTooLong i = true

namespace Value

/-- **Some values are the elements** of a list, a set or a tuple. -/
inductive HasElements (xs : List Value) : Value → Prop
  | list : HasElements xs (.list xs)
  | set : HasElements xs (.set xs)
  | tuple : HasElements xs (.tuple xs)

/-- **A value stands under so many others**, each of which is a part of the one before. -/
inductive Nests : ℕ → Value → Prop
  | start (v : Value) : Nests 0 v
  | element {n : ℕ} {xs : List Value} {v x : Value} (elements : HasElements xs v) (mem : x ∈ xs)
      (part : Nests n x) : Nests (n + 1) v
  | entry {n : ℕ} {es : List (Scalar × Value)} {e : Scalar × Value} (mem : e ∈ es)
      (part : Nests n e.2) : Nests (n + 1) (.dict es)
  | member {n : ℕ} {enum : String} {v : Value} (part : Nests n v) : Nests (n + 1) (.member enum v)

/-- **A whole number beyond the limit on digits** is a part of a value, or a key in it. -/
inductive HasLong : Value → Prop
  | scalar {s : Scalar} (long : s.IsLong) : HasLong (.scalar s)
  | element {xs : List Value} {v x : Value} (elements : HasElements xs v) (mem : x ∈ xs)
      (part : HasLong x) : HasLong v
  | key {es : List (Scalar × Value)} {e : Scalar × Value} (mem : e ∈ es) (long : e.1.IsLong) :
      HasLong (.dict es)
  | entry {es : List (Scalar × Value)} {e : Scalar × Value} (mem : e ∈ es) (part : HasLong e.2) :
      HasLong (.dict es)
  | member {enum : String} {v : Value} (part : HasLong v) : HasLong (.member enum v)

/-- **A value can be shown** where so many values may stand in each other. -/
def Showable (room : ℕ) (v : Value) : Prop := ¬v.Nests room ∧ ¬v.HasLong

/-- An entry of a mapping that can be shown, its key and its value. -/
def ShowableEntry (room : ℕ) (e : Scalar × Value) : Prop := ¬e.1.IsLong ∧ e.2.Showable room

/-- **What keeps a value from being shown** where so many values may stand in each other: what does
so for the first of its parts that cannot be shown. A key is shown in front of its value. -/
inductive Hindered : ℕ → Value → Hindrance → Prop
  | deep (v : Value) : Hindered 0 v .tooDeep
  | scalar {n : ℕ} {s : Scalar} (long : s.IsLong) : Hindered (n + 1) (.scalar s) .longNumber
  | element {n : ℕ} {xs : List Value} {v x : Value} {h : Hindrance} (elements : HasElements xs v)
      (first : FirstWithout (Showable n) xs x) (part : Hindered n x h) : Hindered (n + 1) v h
  | key {n : ℕ} {es : List (Scalar × Value)} {e : Scalar × Value}
      (first : FirstWithout (ShowableEntry n) es e) (long : e.1.IsLong) :
      Hindered (n + 1) (.dict es) .longNumber
  | entry {n : ℕ} {es : List (Scalar × Value)} {e : Scalar × Value} {h : Hindrance}
      (first : FirstWithout (ShowableEntry n) es e) (short : ¬e.1.IsLong)
      (part : Hindered n e.2 h) : Hindered (n + 1) (.dict es) h
  | member {n : ℕ} {enum : String} {v : Value} {h : Hindrance} (part : Hindered n v h) :
      Hindered (n + 1) (.member enum v) h

/-- Where a value stands under many others, one stands under fewer. -/
theorem Nests.mono {n m : ℕ} {v : Value} (h : v.Nests n) (hm : m ≤ n) : v.Nests m := by
  induction h generalizing m with
  | start v =>
    obtain rfl := Nat.le_zero.mp hm
    exact .start v
  | element elements mem _ ih =>
    rcases m with _ | m
    · exact .start _
    · exact .element elements mem (ih (Nat.le_of_succ_le_succ hm))
  | entry mem _ ih =>
    rcases m with _ | m
    · exact .start _
    · exact .entry mem (ih (Nat.le_of_succ_le_succ hm))
  | member _ ih =>
    rcases m with _ | m
    · exact .start _
    · exact .member (ih (Nat.le_of_succ_le_succ hm))

/-- What is too deep stands under as many others as there is room for. -/
theorem Hindered.nests {room : ℕ} {v : Value} (h : v.Hindered room .tooDeep) : v.Nests room := by
  generalize hfound : Hindrance.tooDeep = found at h
  induction h with
  | deep v => exact .start v
  | scalar | key => cases hfound
  | element elements first _ ih => exact .element elements first.mem (ih hfound)
  | entry first _ _ ih => exact .entry first.mem (ih hfound)
  | member _ ih => exact .member (ih hfound)

/-- A number that is too long is there. -/
theorem Hindered.hasLong {room : ℕ} {v : Value} (h : v.Hindered room .longNumber) : v.HasLong := by
  generalize hfound : Hindrance.longNumber = found at h
  induction h with
  | deep v => cases hfound
  | scalar long => exact .scalar long
  | key first long => exact .key first.mem long
  | element elements first _ ih => exact .element elements first.mem (ih hfound)
  | entry first _ _ ih => exact .entry first.mem (ih hfound)
  | member _ ih => exact .member (ih hfound)

/-! ### What can be shown, shape by shape -/

section Shapes
variable {room : ℕ} {xs ys : List Value} {es : List (Scalar × Value)} {s : Scalar} {v : Value}

theorem HasElements.unique (h : HasElements xs v) (h' : HasElements ys v) : xs = ys := by
  cases h <;> cases h' <;> rfl

theorem not_showable_zero : ¬v.Showable 0 := fun h => h.1 (.start v)

theorem showable_scalar : (scalar s).Showable (room + 1) ↔ ¬s.IsLong := by
  refine ⟨fun h long => h.2 (.scalar long), fun short => ⟨fun h => ?_, fun h => ?_⟩⟩
  · rcases h with _ | ⟨⟨⟩, -, -⟩
  · rcases h with long | ⟨⟨⟩, -, -⟩
    exact short long

theorem showable_of_elements (h : HasElements xs v) :
    v.Showable (room + 1) ↔ ∀ x ∈ xs, x.Showable room := by
  refine ⟨fun hv x hx => ⟨fun part => hv.1 (.element h hx part),
    fun part => hv.2 (.element h hx part)⟩, fun hall => ⟨fun hv => ?_, fun hv => ?_⟩⟩
  · cases hv with
    | element elements mem part => exact (hall _ (h.unique elements ▸ mem)).1 part
    | entry | member => cases h
  · cases hv with
    | element elements mem part => exact (hall _ (h.unique elements ▸ mem)).2 part
    | scalar | key | entry | member => cases h

theorem showable_dict : (dict es).Showable (room + 1) ↔ ∀ e ∈ es, ShowableEntry room e := by
  refine ⟨fun hv e he => ⟨fun long => hv.2 (.key he long), fun part => hv.1 (.entry he part),
    fun part => hv.2 (.entry he part)⟩, fun hall => ⟨fun hv => ?_, fun hv => ?_⟩⟩
  · cases hv with
    | element elements => cases elements
    | entry mem part => exact (hall _ mem).2.1 part
  · cases hv with
    | element elements => cases elements
    | key mem long => exact (hall _ mem).1 long
    | entry mem part => exact (hall _ mem).2.2 part

theorem showable_member {enum : String} :
    (member enum v).Showable (room + 1) ↔ v.Showable room := by
  refine ⟨fun hv => ⟨fun part => hv.1 (.member part), fun part => hv.2 (.member part)⟩,
    fun hv => ⟨fun h => ?_, fun h => ?_⟩⟩
  · cases h with
    | element elements => cases elements
    | member part => exact hv.1 part
  · cases h with
    | element elements => cases elements
    | member part => exact hv.2 part

theorem showable_completion {c : Completion} : (completion c).Showable (room + 1) := by
  refine ⟨fun h => ?_, fun h => ?_⟩
  · rcases h with _ | ⟨⟨⟩, -, -⟩
  · rcases h with _ | ⟨⟨⟩, -, -⟩

theorem showable_again {isDict : Bool} : (again isDict).Showable (room + 1) := by
  refine ⟨fun h => ?_, fun h => ?_⟩
  · rcases h with _ | ⟨⟨⟩, -, -⟩
  · rcases h with _ | ⟨⟨⟩, -, -⟩

variable {h : Hindrance}

theorem hindered_scalar : (scalar s).Hindered (room + 1) h ↔ s.IsLong ∧ h = .longNumber := by
  constructor
  · intro hv
    cases hv with
    | scalar long => exact ⟨long, rfl⟩
    | element elements => cases elements
  · rintro ⟨long, rfl⟩
    exact .scalar long

theorem hindered_of_elements (hxs : HasElements xs v) : v.Hindered (room + 1) h ↔
    ∃ x, FirstWithout (Showable room) xs x ∧ x.Hindered room h := by
  constructor
  · intro hv
    cases hv with
    | element elements first part => exact ⟨_, hxs.unique elements ▸ first, part⟩
    | scalar | key | entry | member => cases hxs
  · rintro ⟨x, first, part⟩
    exact .element hxs first part

theorem hindered_dict : (dict es).Hindered (room + 1) h ↔ ∃ e, FirstWithout (ShowableEntry room) es e ∧
    (e.1.IsLong ∧ h = .longNumber ∨ ¬e.1.IsLong ∧ e.2.Hindered room h) := by
  constructor
  · intro hv
    cases hv with
    | element elements => cases elements
    | key first long => exact ⟨_, first, .inl ⟨long, rfl⟩⟩
    | entry first short part => exact ⟨_, first, .inr ⟨short, part⟩⟩
  · rintro ⟨e, first, ⟨long, rfl⟩ | ⟨short, part⟩⟩
    · exact .key first long
    · exact .entry first short part

theorem hindered_member {enum : String} :
    (member enum v).Hindered (room + 1) h ↔ v.Hindered room h := by
  constructor
  · intro hv
    cases hv with
    | element elements => cases elements
    | member part => exact part
  · exact .member

theorem not_hindered_of_showable {room : ℕ} {v : Value} (hv : v.Showable room) : ¬v.Hindered room h := by
  intro hfound
  cases h with
  | longNumber => exact hv.2 hfound.hasLong
  | tooDeep => exact hv.1 hfound.nests

end Shapes

/-! ### The search -/

section Search
variable {room : ℕ} {h : Hindrance} {v : Value}

theorem scalarHindrance?_eq_some_iff {s : Scalar} :
    scalarHindrance? s = some h ↔ s.IsLong ∧ h = .longNumber := by
  unfold Scalar.IsLong
  cases s with
  | int i =>
    cases hi : Decimal.isTooLong i with
    | false => simp [scalarHindrance?, hi]
    | true => simpa [scalarHindrance?, hi] using eq_comm
  | _ => simp [scalarHindrance?]

theorem scalarHindrance?_eq_none_iff {s : Scalar} : scalarHindrance? s = none ↔ ¬s.IsLong := by
  rw [Option.eq_none_iff_forall_ne_some]
  simp only [Ne, scalarHindrance?_eq_some_iff, not_and]
  exact ⟨fun h long => h _ long rfl, fun h _ long _ => h long⟩

/-- What keeps an entry from being shown, its key first. -/
def entryHindrance? (room : ℕ) (e : Scalar × Value) : Option Hindrance :=
  scalarHindrance? e.1 <|> e.2.hindrance? room

theorem firstHindrance?_eq (xs : List Value) :
    firstHindrance? room xs = xs.findSome? (hindrance? room) := by
  induction xs with
  | nil => rfl
  | cons x xs ih => rw [firstHindrance?, findSome?_cons_eq_orElse, ih]

theorem firstEntryHindrance?_eq (es : List (Scalar × Value)) :
    firstEntryHindrance? room es = es.findSome? (entryHindrance? room) := by
  induction es with
  | nil => rfl
  | cons e es ih =>
    rw [firstEntryHindrance?, findSome?_cons_eq_orElse, ih, entryHindrance?]
    cases scalarHindrance? e.1 <;> rfl

theorem hindrance?_of_elements {xs : List Value} (elements : HasElements xs v) :
    v.hindrance? (room + 1) = xs.findSome? (hindrance? room) := by
  cases elements <;> exact firstHindrance?_eq xs

theorem hindrance?_dict (es : List (Scalar × Value)) :
    (dict es).hindrance? (room + 1) = es.findSome? (entryHindrance? room) :=
  firstEntryHindrance?_eq es

theorem entryHindrance?_eq_none_iff {e : Scalar × Value} :
    entryHindrance? room e = none ↔ ¬e.1.IsLong ∧ e.2.hindrance? room = none := by
  rw [entryHindrance?, Option.orElse_eq_none, scalarHindrance?_eq_none_iff]

theorem entryHindrance?_eq_some_iff {e : Scalar × Value} : entryHindrance? room e = some h ↔
    e.1.IsLong ∧ h = .longNumber ∨ ¬e.1.IsLong ∧ e.2.hindrance? room = some h := by
  rw [entryHindrance?, Option.orElse_eq_some, scalarHindrance?_eq_some_iff,
    scalarHindrance?_eq_none_iff]

/-- **The search for a hindrance finds nothing** exactly in what can be shown. -/
theorem hindrance?_eq_none_iff : v.hindrance? room = none ↔ v.Showable room := by
  induction room generalizing v with
  | zero => exact iff_of_false (by simp [hindrance?]) not_showable_zero
  | succ room ih =>
    have helements {xs : List Value} {v : Value} (elements : HasElements xs v) :
        v.hindrance? (room + 1) = none ↔ v.Showable (room + 1) := by
      rw [hindrance?_of_elements elements, showable_of_elements elements]
      exact findSome?_eq_none_iff_forall fun _ => ih
    cases v with
    | scalar s => rw [hindrance?, scalarHindrance?_eq_none_iff, showable_scalar]
    | list xs => exact helements .list
    | set xs => exact helements .set
    | tuple xs => exact helements .tuple
    | dict es =>
      rw [hindrance?_dict, showable_dict]
      refine findSome?_eq_none_iff_forall fun e => ?_
      rw [entryHindrance?_eq_none_iff, ih, ShowableEntry]
    | member enum w => rw [hindrance?, ih, showable_member]
    | completion c => exact iff_of_true rfl showable_completion
    | again isDict => exact iff_of_true rfl showable_again

/-- **Else it finds what comes first.** -/
theorem hindrance?_eq_some_iff : v.hindrance? room = some h ↔ v.Hindered room h := by
  induction room generalizing v h with
  | zero =>
    rw [hindrance?]
    constructor
    · intro hfound
      cases hfound
      exact .deep v
    · intro hfound
      cases hfound
      rfl
  | succ room ih =>
    have helements {xs : List Value} {v : Value} (elements : HasElements xs v) :
        v.hindrance? (room + 1) = some h ↔ v.Hindered (room + 1) h := by
      rw [hindrance?_of_elements elements, hindered_of_elements elements,
        findSome?_eq_some_iff_first fun _ => hindrance?_eq_none_iff]
      exact exists_congr fun x => and_congr_right fun _ => ih
    cases v with
    | scalar s => rw [hindrance?, scalarHindrance?_eq_some_iff, hindered_scalar]
    | list xs => exact helements .list
    | set xs => exact helements .set
    | tuple xs => exact helements .tuple
    | dict es =>
      have hnone (e : Scalar × Value) : entryHindrance? room e = none ↔ ShowableEntry room e := by
        rw [entryHindrance?_eq_none_iff, hindrance?_eq_none_iff, ShowableEntry]
      rw [hindrance?_dict, hindered_dict, findSome?_eq_some_iff_first hnone]
      refine exists_congr fun e => and_congr_right fun _ => ?_
      rw [entryHindrance?_eq_some_iff, ih]
    | member enum w => rw [hindrance?, ih, hindered_member]
    | completion c => exact iff_of_false nofun (not_hindered_of_showable showable_completion)
    | again isDict => exact iff_of_false nofun (not_hindered_of_showable showable_again)

end Search

/-! ### Lists in each other -/

/-- Lists in each other. -/
def nested : ℕ → Value
  | 0 => .list []
  | n + 1 => .list [nested n]

theorem nests_nested (n : ℕ) : (nested n).Nests n := by
  induction n with
  | zero => exact .start _
  | succ n ih => exact .element .list List.mem_cons_self ih

theorem not_hasLong_nested (n : ℕ) : ¬(nested n).HasLong := by
  intro h
  induction n with
  | zero =>
    cases h with
    | element elements mem =>
      cases elements
      exact absurd mem List.not_mem_nil
  | succ n ih =>
    cases h with
    | element elements mem part =>
      cases elements
      rw [List.mem_singleton.mp mem] at part
      exact ih part

end Value

end Stepwise
