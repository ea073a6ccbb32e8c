import Mathlib.Algebra.Group.Nat.Defs
import Stepwise.Decimal.Limit
import Stepwise.Proofs.Entries
import Stepwise.Value.Basic

/-!
# What values are made of

A value is *made of* scalars with a property (`Value.MadeOf`) if it is built from such scalars by
lists and by mappings whose names are distinct texts. Three properties matter for texts:
`Scalar.Exact` holds of what comes back from a text as it was, `Scalar.FloatFree` of that and of
whole numbers of any size, and `Scalar.Readable` of what can be read from a text at all, which the
numbers of double width can be as well. What is made of readable scalars and has no number of double
width is made of exact ones (`MadeOf.exact`). A value with a part that no text stands for
(`Value.HasForeign`) is made of none of them.
-/

namespace Stepwise

namespace Scalar

/-- **What comes back from a text as it was**: null, truth values, whole numbers that have few
enough digits, and texts in which no two surrogates stand as a pair. -/
def Exact : Scalar → Prop
  | null | bool _ => True
  | int i => i.natAbs < 10 ^ Decimal.maxDigits
  | text t => t.joined = t
  | float _ | bytes _ | date _ | moment _ => False

theorem exact_int {i : Int} (h : i.natAbs ≤ Decimal.maxDigits) : (int i).Exact := by
  have hpow : 10 ^ i.natAbs ≤ 10 ^ Decimal.maxDigits := Nat.pow_le_pow_right (by decide) h
  exact Nat.lt_of_lt_of_le (Nat.lt_pow_self (by decide)) hpow

/-- **What a text can stand for**, numbers of double width apart: null, truth values, whole numbers
of any size, and texts in which no two surrogates stand as a pair, which are one character. -/
def FloatFree : Scalar → Prop
  | null | bool _ | int _ => True
  | text t => t.joined = t
  | float _ | bytes _ | date _ | moment _ => False

/-- What can be read from a text. -/
def Readable (s : Scalar) : Prop := s.Exact ∨ ∃ x, s = .float x

/-- **What no text stands for**: bytes, dates and moments. -/
def Foreign : Scalar → Prop
  | bytes _ | date _ | moment _ => True
  | null | bool _ | int _ | float _ | text _ => False

/-- A text that can be the name of a member. -/
def IsName (s : Scalar) : Prop := ∃ t : Text, s = .text t ∧ t.joined = t

end Scalar

namespace Value

/-- **A value is made of scalars** with a property. -/
inductive MadeOf (leaf : Scalar → Prop) : Value → Prop
  | scalar {s : Scalar} (h : leaf s) : MadeOf leaf (.scalar s)
  | list {xs : List Value} (elements : ∀ x ∈ xs, MadeOf leaf x) : MadeOf leaf (.list xs)
  | dict {es : List (Scalar × Value)} (distinct : Entries.Distinct es)
      (names : ∀ e ∈ es, e.1.IsName) (members : ∀ e ∈ es, MadeOf leaf e.2) : MadeOf leaf (.dict es)

theorem MadeOf.mono {P Q : Scalar → Prop} (h : ∀ s, P s → Q s) {v : Value} (hv : v.MadeOf P) :
    v.MadeOf Q := by
  induction hv with
  | scalar hs => exact .scalar (h _ hs)
  | list _ ih => exact .list ih
  | dict distinct names _ ih => exact .dict distinct names ih

theorem madeOf_empty {leaf : Scalar → Prop} : (dict []).MadeOf leaf :=
  .dict .nil (fun _ h => absurd h List.not_mem_nil) fun _ h => absurd h List.not_mem_nil

/-- **A value with a part that no text stands for**: a set, or a foreign scalar. -/
inductive HasForeign : Value → Prop
  | scalar {s : Scalar} (h : s.Foreign) : HasForeign (.scalar s)
  | set (xs : List Value) : HasForeign (.set xs)
  | list {xs : List Value} {x : Value} (mem : x ∈ xs) (part : HasForeign x) : HasForeign (.list xs)
  | tuple {xs : List Value} {x : Value} (mem : x ∈ xs) (part : HasForeign x) :
      HasForeign (.tuple xs)
  | dict {es : List (Scalar × Value)} {e : Scalar × Value} (mem : e ∈ es)
      (part : HasForeign e.2) : HasForeign (.dict es)
  | member {enum : String} {v : Value} (part : HasForeign v) : HasForeign (.member enum v)

mutual

/-- Whether a number of double width is part of a value. -/
def hasFloat : Value → Bool
  | float _ => true
  | list xs | set xs | tuple xs => anyHasFloat xs
  | dict es => entryHasFloat es
  | member _ v => hasFloat v
  | scalar _ | completion _ | again _ => false

/-- Whether a number of double width is part of one of some values. -/
def anyHasFloat : List Value → Bool
  | [] => false
  | x :: xs => hasFloat x || anyHasFloat xs

/-- Whether a number of double width is part of the value of an entry. -/
def entryHasFloat : List (Scalar × Value) → Bool
  | [] => false
  | (_, v) :: es => hasFloat v || entryHasFloat es

end

theorem anyHasFloat_eq_false {xs : List Value} :
    anyHasFloat xs = false ↔ ∀ x ∈ xs, x.hasFloat = false := by
  induction xs with
  | nil => simp [anyHasFloat]
  | cons x xs ih => simp [anyHasFloat, ih]

theorem entryHasFloat_eq_false {es : List (Scalar × Value)} :
    entryHasFloat es = false ↔ ∀ e ∈ es, e.2.hasFloat = false := by
  induction es with
  | nil => simp [entryHasFloat]
  | cons e es ih => simp [entryHasFloat, ih]

theorem MadeOf.exact {v : Value} (h : v.MadeOf Scalar.Readable) (hfree : v.hasFloat = false) :
    v.MadeOf Scalar.Exact := by
  induction h with
  | scalar hs =>
    rcases hs with hs | ⟨x, rfl⟩
    · exact .scalar hs
    · cases hfree
  | list _ ih =>
    rw [hasFloat, anyHasFloat_eq_false] at hfree
    exact .list fun x hx => ih x hx (hfree x hx)
  | dict distinct names _ ih =>
    rw [hasFloat, entryHasFloat_eq_false] at hfree
    exact .dict distinct names fun e he => ih e he (hfree e he)

end Value

end Stepwise
