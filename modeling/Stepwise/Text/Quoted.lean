import Stepwise.Text.Basic
import Stepwise.Text.Digits
import Stepwise.Text.Printable

/-!
# Quoted text

How texts and rows of bytes are shown inside messages. The mark around them is the single quote,
unless the text holds a single quote and no double quote. The mark itself and the backslash are
escaped, and so is every character that is not printable: line breaks and the tabulator by their
letters, all others by two, four or eight digits in base sixteen, as few as hold the code point.
A surrogate is never printable.
-/

namespace Stepwise.Text

/-- The quotation mark for a text: the double quote only where it saves escapes. -/
def mark (t : Text) : Char :=
  if t.contains (.char '\'') && !t.contains (.char '"') then '"' else '\''

/-- The escape of a code point: a letter for the width and the digits. -/
def escape (n : Nat) : List Char :=
  if n < 0x100 then '\\' :: 'x' :: hex 2 n
  else if n < 0x10000 then '\\' :: 'u' :: hex 4 n
  else '\\' :: 'U' :: hex 8 n

/-- A character inside quotation marks `q`. -/
def quotedChar (q c : Char) : List Char :=
  if c = q ∨ c = '\\' then ['\\', c]
  else if c = '\n' then ['\\', 'n']
  else if c = '\r' then ['\\', 'r']
  else if c = '\t' then ['\\', 't']
  else if isPrintable c then [c]
  else escape c.toNat

/-- A code point inside quotation marks `q`. -/
def quotedPoint (q : Char) : CodePoint → List Char
  | .char c => quotedChar q c
  | .surrogate n => escape (CodePoint.surrogate n).number

/-- A text in quotation marks. -/
def quoted (t : Text) : String :=
  String.ofList (mark t :: t.flatMap (quotedPoint (mark t)) ++ [mark t])

/-- A byte inside quotation marks: as an ASCII character, or escaped. -/
def quotedByte (q : Char) (b : UInt8) : List Char :=
  if b.toNat < 0x7f then quotedChar q (Char.ofNat b.toNat) else escape b.toNat

/-- A row of bytes in quotation marks, with the letter `b` before them. -/
def quotedBytes (bs : List UInt8) : String :=
  let q := mark (ofChars (bs.map fun b => Char.ofNat b.toNat))
  String.ofList ('b' :: q :: bs.flatMap (quotedByte q) ++ [q])

end Stepwise.Text
