import Mathlib.Algebra.Group.Nat.Defs
import Mathlib.Data.List.TakeDrop
import Mathlib.Data.List.TakeWhile
import Stepwise.Json.Writer

/-!
# Whole numbers

A whole number is written as its digits in base ten behind a sign (`digits`), unless it has too many
of them.

* `writtenInt_of_lt`: a number with few enough digits is written.
* `number_append`: its digits are read as the number where no part of a numeral follows (`Ends`).
* `of_number`: what is read as a whole number has few enough digits.
* `suffix_of_number`: what is left is an end of the text.
-/

namespace Stepwise

namespace Text

theorem decimalValue_eq (ds : List Char) : decimalValue ds = Nat.ofDigitChars 10 ds 0 := rfl

theorem decimalValue_decimal (n : ℕ) : decimalValue (decimal n) = n := by
  rw [decimalValue_eq, decimal, Nat.ofDigitChars_ten_toDigits]

theorem decimalValue_cons (d : Char) (ds : List Char) :
    decimalValue (d :: ds) = 10 ^ ds.length * (d.toNat - 0x30) + decimalValue ds := by
  rw [decimalValue_eq, decimalValue_eq, Nat.ofDigitChars_cons,
    Nat.ofDigitChars_eq_ofDigitChars_zero, Nat.mul_zero, Nat.zero_add]
  rfl

theorem isDigit_iff {c : Char} : isDigit c = true ↔ 0x30 ≤ c.toNat ∧ c.toNat ≤ 0x39 := by
  simp only [isDigit, Bool.and_eq_true, decide_eq_true_eq]
  rfl

theorem decimalValue_lt {ds : List Char} (h : ∀ d ∈ ds, isDigit d = true) :
    decimalValue ds < 10 ^ ds.length := by
  induction ds with
  | nil => decide
  | cons d ds ih =>
    have hd := isDigit_iff.mp (h d (List.mem_cons_self ..))
    have hds := ih fun e he => h e (List.mem_cons_of_mem _ he)
    have hle : 10 ^ ds.length * (d.toNat - 0x30) ≤ 10 ^ ds.length * 9 :=
      Nat.mul_le_mul_left _ (by omega)
    rw [decimalValue_cons, List.length_cons, Nat.pow_succ]
    omega

theorem isDigit_of_mem_decimal {n : ℕ} {c : Char} (h : c ∈ decimal n) : isDigit c = true := by
  have hc := Nat.isDigit_of_mem_toDigits (by decide) (by decide) h
  simp only [Char.isDigit, Bool.and_eq_true, decide_eq_true_eq] at hc
  exact isDigit_iff.mpr hc

theorem decimal_ne_nil (n : ℕ) : decimal n ≠ [] := Nat.toDigits_ne_nil

theorem length_decimal_le_iff {n k : ℕ} (hk : 0 < k) : (decimal n).length ≤ k ↔ n < 10 ^ k :=
  Nat.length_toDigits_le_iff (by decide) hk

/-- Only the number zero is written with a leading zero. -/
theorem eq_nil_of_decimal_eq {n : ℕ} {ds : List Char} (h : decimal n = '0' :: ds) : ds = [] := by
  by_contra hne
  have hdigits : ∀ d ∈ ds, isDigit d = true := fun d hd =>
    isDigit_of_mem_decimal (n := n) (by rw [h]; exact List.mem_cons_of_mem _ hd)
  have hvalue : n = decimalValue ds := by
    have := decimalValue_cons '0' ds
    rw [← h, decimalValue_decimal] at this
    simpa using this
  have hlt : n < 10 ^ ds.length := hvalue ▸ decimalValue_lt hdigits
  have hlen := (length_decimal_le_iff (List.length_pos_iff.mpr hne)).mpr hlt
  rw [h, List.length_cons] at hlen
  omega

/-- The digits of a number begin with no character that is not a digit. -/
theorem decimal_append_ne {n : ℕ} {c : Char} (hc : isDigit c = false) (cs ds : Text) :
    ofChars (decimal n) ++ cs ≠ .char c :: ds := by
  rcases hd : decimal n with _ | ⟨e, es⟩
  · exact absurd hd (decimal_ne_nil n)
  · have he : isDigit e = true := isDigit_of_mem_decimal (n := n) (by rw [hd]; simp)
    rintro ⟨⟩
    rw [hc] at he
    exact Bool.false_ne_true he

end Text

namespace Json

open Text

/-- The digits of a whole number behind its sign. -/
def digits (i : Int) : List Char := if i < 0 then '-' :: decimal i.natAbs else decimal i.natAbs

theorem writtenInt_of_lt {i : Int} (hi : i.natAbs < 10 ^ Decimal.maxDigits) :
    writtenInt i = .ok (digits i) := by
  have hlen : (decimal i.natAbs).length ≤ Decimal.maxDigits :=
    (length_decimal_le_iff (by decide)).mpr hi
  unfold writtenInt digits
  rw [if_neg (by omega)]

/-- **Nothing, or what ends an element or a member**, follows. -/
def Ends (rest : Text) : Prop :=
  ∀ p ∈ rest.head?, p = .char ',' ∨ p = .char ']' ∨ p = .char '\x7d'

section Ends
variable {rest : Text} (hrest : Ends rest)
include hrest

theorem Ends.fraction? : fraction? rest = none := by
  unfold Json.fraction?
  split
  · rcases hrest (.char '.') rfl with h | h | h <;> exact absurd h (by decide)
  · rfl

theorem Ends.exponent? : exponent? rest = none := by
  unfold Json.exponent?
  split
  · next e _ =>
    rcases hrest e rfl with rfl | rfl | rfl <;> rfl
  · rfl

theorem Ends.leadingDigits : leadingDigits rest = ([], rest) := by
  cases rest with
  | nil => rfl
  | cons p rest => rcases hrest p rfl with rfl | rfl | rfl <;> rfl

theorem Ends.leadingDigits_append {ds : List Char} (hds : ∀ d ∈ ds, isDigit d = true) :
    Json.leadingDigits (ofChars ds ++ rest) = (ds, rest) := by
  induction ds with
  | nil => exact hrest.leadingDigits
  | cons d ds ih =>
    obtain ⟨hd, hds⟩ := List.forall_mem_cons.mp hds
    rw [ofChars_cons, List.cons_append, Json.leadingDigits, if_pos hd, ih hds]

theorem Ends.whole?_append (n : ℕ) :
    whole? (ofChars (decimal n) ++ rest) = some (decimal n, rest) := by
  have hsome : someDigits? (ofChars (decimal n) ++ rest) = some (decimal n, rest) := by
    rw [someDigits?, hrest.leadingDigits_append fun d => isDigit_of_mem_decimal]
    simp only [List.isEmpty_iff, if_neg (decimal_ne_nil n)]
  unfold whole?
  split
  · next rest' heq =>
    rcases hd : decimal n with _ | ⟨d, ds⟩
    · exact absurd hd (decimal_ne_nil n)
    · rw [hd, ofChars_cons, List.cons_append] at heq
      obtain ⟨hzero, htail⟩ := List.cons.inj heq
      cases hzero
      rw [eq_nil_of_decimal_eq hd, ← htail, eq_nil_of_decimal_eq hd]
      rfl
  · exact hsome

/-- **The digits of a whole number are read as the number**, where no part of a numeral follows. -/
theorem number_append {i : Int} (hi : i.natAbs < 10 ^ Decimal.maxDigits) :
    number (ofChars (digits i) ++ rest) = .ok (.int i, rest) := by
  have hlen : ¬Decimal.maxDigits < (decimal i.natAbs).length :=
    Nat.not_lt.mpr ((length_decimal_le_iff (by decide)).mpr hi)
  have hvalue : (if i < 0 then -(i.natAbs : Int) else i.natAbs) = i := by
    split <;> omega
  unfold number
  split
  next negative body hsigned =>
  have hsign : (decide (i < 0), ofChars (decimal i.natAbs) ++ rest) = (negative, body) := by
    rw [← hsigned, digits]
    by_cases hneg : i < 0
    · simp only [hneg, if_true, decide_true, ofChars_cons, List.cons_append]
    · simp only [hneg, if_false, decide_false]
      split
      · next h => exact absurd h (decimal_append_ne rfl rest _)
      · rfl
  obtain ⟨rfl, rfl⟩ := Prod.mk.inj hsign
  simp only [hrest.whole?_append, hrest.fraction?, hrest.exponent?, Option.map_none,
    Option.getD_none, Option.isNone_none, Bool.and_self, if_true, if_neg hlen,
    decimalValue_decimal, decide_eq_true_eq, hvalue]

end Ends

/-! ### What is read as a number -/

theorem isDigit_of_leadingDigits (cs : Text) : ∀ d ∈ (leadingDigits cs).1, isDigit d = true := by
  fun_induction leadingDigits cs with
  | case1 c rest hc ds rest' hrest ih =>
    rw [hrest] at ih
    exact List.forall_mem_cons.mpr ⟨hc, ih⟩
  | case2 => exact fun d hd => absurd hd List.not_mem_nil
  | case3 => exact fun d hd => absurd hd List.not_mem_nil

theorem isDigit_of_whole? {cs rest : Text} {ds : List Char} (h : whole? cs = some (ds, rest)) :
    ∀ d ∈ ds, isDigit d = true := by
  unfold whole? at h
  split at h
  · cases h
    intro d hd
    rw [List.mem_singleton.mp hd]
    rfl
  · unfold someDigits? at h
    simp only at h
    split at h
    · cases h
    · have hds : (leadingDigits cs).1 = ds := congrArg Prod.fst (Option.some.inj h)
      exact hds ▸ isDigit_of_leadingDigits cs

/-- What is read as a number is a whole number with few enough digits, or one of double width. -/
theorem of_number {cs rest : Text} {v : Value} (h : number cs = .ok (v, rest)) :
    (∃ i : Int, v = .int i ∧ i.natAbs < 10 ^ Decimal.maxDigits) ∨ ∃ x, v = .float x := by
  unfold number at h
  split at h
  split at h
  · cases h
  · next negative body hsigned ds rest' hwhole =>
    have hlt := decimalValue_lt (isDigit_of_whole? hwhole)
    simp only at h
    split at h
    · split at h
      · cases h
      · next hlen =>
        have hle := Nat.pow_le_pow_right (by decide : 0 < 10) (Nat.not_lt.mp hlen)
        cases h
        refine .inl ⟨_, rfl, ?_⟩
        split <;> omega
    · cases h
      exact .inr ⟨_, rfl⟩

/-! ### What is left behind a number -/

section Suffix
variable {cs rest : Text} {ds : List Char}

theorem suffix_leadingDigits (cs : Text) : (leadingDigits cs).2 <:+ cs := by
  fun_induction leadingDigits cs with
  | case1 c cs _ ds rest hrest ih =>
    rw [hrest] at ih
    exact ih.trans (List.suffix_cons _ cs)
  | case2 => exact List.suffix_rfl
  | case3 => exact List.suffix_rfl

theorem suffix_of_someDigits? (h : someDigits? cs = some (ds, rest)) : rest <:+ cs := by
  unfold someDigits? at h
  simp only at h
  split at h
  · cases h
  · have hrest : (leadingDigits cs).2 = rest := congrArg Prod.snd (Option.some.inj h)
    exact hrest ▸ suffix_leadingDigits cs

theorem suffix_signOf (cs : Text) : (signOf cs).2 <:+ cs := by
  unfold signOf
  split
  · exact List.suffix_cons _ _
  · exact List.suffix_cons _ _
  · exact List.suffix_rfl

theorem suffix_of_whole? (h : whole? cs = some (ds, rest)) : rest <:+ cs := by
  unfold whole? at h
  split at h
  · cases h
    exact List.suffix_cons _ _
  · exact suffix_of_someDigits? h

theorem suffix_of_fraction? (h : fraction? cs = some (ds, rest)) : rest <:+ cs := by
  unfold fraction? at h
  split at h
  · exact (suffix_of_someDigits? h).trans (List.suffix_cons _ _)
  · cases h

theorem suffix_of_exponent? {e : ℤ} (h : exponent? cs = some (e, rest)) : rest <:+ cs := by
  unfold exponent? at h
  split at h
  · next p cs =>
    split at h
    · obtain ⟨⟨ds, after⟩, hds, hr⟩ := Option.map_eq_some_iff.mp h
      cases hr
      have hsign : rest <:+ (signOf cs).2 := suffix_of_someDigits? hds
      exact (hsign.trans (suffix_signOf cs)).trans (List.suffix_cons p cs)
    · cases h
  · cases h

/-- A part that may be missing leaves an end of the text as well. -/
theorem suffix_getD {α : Type} {part : Option (α × Text)} (cs : Text)
    (h : ∀ a rest, part = some (a, rest) → rest <:+ cs) :
    ((part.map fun r => (some r.1, r.2)).getD (none, cs)).2 <:+ cs := by
  cases part with
  | none => exact List.suffix_rfl
  | some r => exact h r.1 r.2 rfl

theorem suffix_of_number {v : Value} (h : number cs = .ok (v, rest)) : rest <:+ cs := by
  unfold number at h
  split at h
  next negative body hsigned =>
  have hbody : body <:+ cs := by
    split at hsigned
    · obtain ⟨-, rfl⟩ := Prod.mk.inj hsigned
      exact List.suffix_cons _ _
    · obtain ⟨-, rfl⟩ := Prod.mk.inj hsigned
      exact List.suffix_rfl
  split at h
  · cases h
  · next ds behind hwhole =>
    have hfraction := suffix_getD behind fun _ _ => suffix_of_fraction?
    have hexponent := suffix_getD ((((fraction? behind).map fun r => (some r.1, r.2)).getD
      (none, behind)).2) fun _ _ => suffix_of_exponent?
    have hend := ((hexponent.trans hfraction).trans (suffix_of_whole? hwhole)).trans hbody
    simp only at h
    split at h
    · split at h
      · cases h
      · cases h
        exact hend
    · cases h
      exact hend

end Suffix

end Json

end Stepwise
