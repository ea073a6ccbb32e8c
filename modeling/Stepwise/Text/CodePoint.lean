/-!
# Code points

A code point is a character, or a surrogate, which is no character: texts whose characters are given
by numbers of sixteen bits write a character beyond that range as a pair of surrogates, and one of
them may also stand alone. `ofNumber` and `number` go between code points and their numbers.
-/

namespace Stepwise.Text

/-- A character, or the surrogate whose number is `n` above that of the first one. -/
inductive CodePoint where
  | char (c : Char)
  | surrogate (n : Fin 0x800)
  deriving DecidableEq, Repr

namespace CodePoint

/-- The number of a code point. -/
def number : CodePoint → Nat
  | char c => c.toNat
  | surrogate n => 0xd800 + n

instance : Hashable CodePoint := ⟨fun p => hash p.number⟩

/-- The code point with a number below `0x110000`. -/
def ofNumber (n : Nat) : CodePoint :=
  if h : 0xd800 ≤ n ∧ n < 0xe000 then surrogate ⟨n - 0xd800, by omega⟩ else char (Char.ofNat n)

theorem ofNumber_number (p : CodePoint) : ofNumber p.number = p := by
  cases p with
  | char c =>
    have h : ¬(0xd800 ≤ c.toNat ∧ c.toNat < 0xe000) := by
      have := c.valid
      simp only [UInt32.isValidChar, Nat.isValidChar] at this
      simp only [Char.toNat]
      omega
    simp [ofNumber, number, h, Char.ofNat_toNat]
  | surrogate n =>
    have h : 0xd800 ≤ 0xd800 + n.val ∧ 0xd800 + n.val < 0xe000 := by omega
    simp [ofNumber, number, h]

/-- Whether a code point is a character with a property. -/
def has (property : Char → Bool) : CodePoint → Bool
  | char c => property c
  | surrogate _ => false

/-- Whether a code point is a surrogate. -/
def isSurrogate : CodePoint → Bool
  | char _ => false
  | surrogate _ => true

/-- The character that two surrogates stand for, if they are the first and the second of a pair. -/
def ofPair? (high low : Fin 0x800) : Option Char :=
  if high.val < 0x400 ∧ 0x400 ≤ low.val then
    some (Char.ofNat (0x10000 + high * 0x400 + (low - 0x400)))
  else none

/-- The first and the second surrogate of a character beyond sixteen bits. -/
def pair (c : Char) : Fin 0x800 × Fin 0x800 :=
  let n := c.toNat - 0x10000
  (Fin.ofNat 0x800 (n / 0x400), Fin.ofNat 0x800 (0x400 + n % 0x400))

end CodePoint

end Stepwise.Text
