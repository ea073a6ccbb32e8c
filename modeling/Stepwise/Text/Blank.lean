import Stepwise.Text.Basic

/-!
# Blank characters

The characters that count as blank space: the white space of Unicode 14 and the four information
separators, which the space around a number may not hold. A text is blank if it has no other
character.
-/

namespace Stepwise.Text

/-- Whether a character is blank. -/
def isBlank (c : Char) : Bool :=
  let n := c.toNat
  (0x09 ≤ n && n ≤ 0x0d) || (0x1c ≤ n && n ≤ 0x20) || n == 0x85 || n == 0xa0 || n == 0x1680 ||
    (0x2000 ≤ n && n ≤ 0x200a) || n == 0x2028 || n == 0x2029 || n == 0x202f || n == 0x205f ||
    n == 0x3000

/-- Whether a text has no code point that is not blank; the empty text is blank. -/
def AllBlank (t : Text) : Prop := ∀ p ∈ t, p.has isBlank = true

instance (t : Text) : Decidable (AllBlank t) := inferInstanceAs (Decidable (∀ p ∈ t, _))

@[simp] theorem allBlank_ofString {s : String} :
    AllBlank (ofString s) ↔ ∀ c ∈ s.toList, isBlank c = true := by
  simp [AllBlank, ofString, ofChars, CodePoint.has]

/-- Whether a character may stand around a number: a blank one, but no information separator. -/
def isSpacing (c : Char) : Bool := isBlank c && !(0x1c ≤ c.toNat && c.toNat ≤ 0x1f)

/-- A text without the space before it. -/
def dropSpacing (t : Text) : Text := t.dropWhile (·.has isSpacing)

/-- A text without the space at its two ends. -/
def trimmed (t : Text) : Text := (dropSpacing (dropSpacing t).reverse).reverse

end Stepwise.Text
