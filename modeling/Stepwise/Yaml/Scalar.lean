import Stepwise.Decimal.Reading
import Stepwise.Text.Blank
import Stepwise.Text.DecimalDigit
import Stepwise.Text.Lowercase
import Stepwise.Value.Basic
import Stepwise.Yaml.Fault
import Stepwise.Yaml.Tag

/-!
# The data of scalars

What a scalar with a tag stands for: whole numbers in five bases, numbers of double width, truth
values, times and rows of bytes. The form of a plain scalar has been checked when it was given its
tag, but a tag may also be written out before a text that does not fit it.
-/

namespace Stepwise.Yaml

open Stepwise.Text

/-! ### Whole numbers -/

/-- A text without its sign. -/
def withoutSign : Text → Text
  | .char '+' :: t | .char '-' :: t => t
  | t => t

/-- A text without its underscores. -/
def withoutUnderscores (t : Text) : Text := t.filter (· ≠ .char '_')

/-- The number that a digit or a letter stands for. -/
def digitIn? : CodePoint → Option Nat
  | .surrogate _ => none
  | .char c =>
    match digitValue? c with
    | some d => some d
    | none =>
      if 'a' ≤ c && c ≤ 'z' then some (c.toNat - 0x57)
      else if 'A' ≤ c && c ≤ 'Z' then some (c.toNat - 0x37)
      else none

/-- The digits of a text in a base; each must be below the base. -/
def digitsIn? (base : Nat) (t : Text) : Option (List Nat) :=
  t.mapM fun p => (digitIn? p).filter (· < base)

/-- A text without the mark of its base. -/
def withoutMark (base : Nat) : Text → Text
  | .char '0' :: .char m :: t =>
    let marks := if base = 2 then ['b', 'B'] else if base = 8 then ['o', 'O']
      else if base = 16 then ['x', 'X'] else []
    if marks.contains m then t else .char '0' :: .char m :: t
  | t => t

/-- The number of decimal digits that a text begins with. -/
def digitCount (t : Text) : Nat := (t.takeWhile (·.has fun c => (digitValue? c).isSome)).length

/-- The whole number that a text stands for in a base. Space around it does not count, and it may
have a sign and, in bases two, eight and sixteen, the mark of its base. In base ten the limit on
digits is looked at before what follows the digits. -/
def intIn (base : Nat) (t : Text) : Except Fault Int :=
  let body := trimmed t
  let negative := body.head? = some (.char '-')
  let number := withoutSign body
  if base = 10 ∧ Decimal.maxDigits < digitCount number then .error (.longInt (digitCount number))
  else match digitsIn? base (withoutMark base number) with
    | none | some [] => .error (.notInt base t)
    | some ds =>
      let n := ds.foldl (fun n d => base * n + d) 0
      .ok (if negative then -(n : Int) else n)

/-- The whole number of a scalar: by its first characters in base two, sixteen or eight; with colons
in base sixty, and else in base ten. -/
def readInt (text : Text) : Except Fault Int := do
  let t := withoutUnderscores text
  let sign : Int := if t.head? = some (.char '-') then -1 else 1
  match withoutSign t with
  | [] => throw .emptyNumber
  | [.char '0'] => pure 0
  | .char '0' :: .char 'b' :: ds => do pure (sign * (← intIn 2 ds))
  | .char '0' :: .char 'x' :: ds => do pure (sign * (← intIn 16 ds))
  | .char '0' :: ds => do pure (sign * (← intIn 8 (.char '0' :: ds)))
  | body =>
    if body.contains (.char ':') then
      let digits ← (Tag.parts (.char ':') body).mapM (intIn 10)
      pure (sign * digits.foldl (fun n d => 60 * n + d) 0)
    else do pure (sign * (← intIn 10 body))

/-! ### Numbers of double width -/

/-- The exponent at the end of a decimal. -/
def exponent? : List Char → Option Int
  | [] => some 0
  | 'e' :: rest =>
    let ds := Tag.unsigned rest
    if Tag.isRow isDigit ds then
      some (if rest.head? = some '-' then -(decimalValue ds : Int) else decimalValue ds)
    else none
  | _ => none

/-- The number of double width that a decimal stands for; the words for infinity and for no number
count as such. Letters are in lower case. -/
def decimal? (cs : List Char) : Option Float := do
  let negative := cs.head? = some '-'
  let body := Tag.unsigned cs
  let word := String.ofList body
  let x : Float ←
    if word = "inf" ∨ word = "infinity" then some (1 / 0)
    else if word = "nan" then some (0 / 0)
    else do
      let (whole, rest) := body.span isDigit
      let (fraction, rest) := match rest with
        | '.' :: rest => rest.span isDigit
        | rest => ([], rest)
      let e ← exponent? rest
      if whole.isEmpty && fraction.isEmpty then none
      else some (Decimal.nearest (Decimal.numeral whole fraction e))
  pure (if negative then -x else x)

/-- Digits of all scripts as those of base ten. -/
def asciiDigits (cs : List Char) : List Char :=
  cs.map fun c => match digitValue? c with
    | some d => Char.ofNat (0x30 + d)
    | none => c

/-- The number of double width of a text. Space around it does not count. -/
def floatOf (t : Text) : Except Fault Float :=
  match decimal? (asciiDigits (trimmed t).replaced) with
  | some x => .ok x
  | none => .error (.notFloat t)

/-- Adds up digits in base sixty, the last one first. Every unit must be in range, also that of a
digit zero. -/
def sumSixty : List Float → Nat → Float → Except Fault Float
  | [], _, sum => .ok sum
  | d :: ds, unit, sum =>
    let x := Float.ofNat unit
    if x.isInf then .error .overflow else sumSixty ds (unit * 60) (sum + d * x)

/-- A text in lower case without underscores and sign. -/
def floatBody (text : Text) : Text := withoutSign (lower (withoutUnderscores text))

/-- Whether a text is the word for no number. -/
def isNanWord (text : Text) : Bool := floatBody text = (".nan" : String)

/-- The number of double width of a scalar: a word with a point, a number in base sixty with colons,
or a decimal. -/
def readFloat (text : Text) : Except Fault Float := do
  let t := withoutUnderscores text
  if t.isEmpty then throw .emptyNumber
  let sign : Float := if t.head? = some (.char '-') then -1 else 1
  let body := floatBody text
  if body = (".inf" : String) then pure (sign * (1 / 0))
  else if isNanWord text then pure (0 / 0)
  else if body.contains (.char ':') then
    let digits ← (Tag.parts (.char ':') body).mapM floatOf
    pure (sign * (← sumSixty digits.reverse 1 0))
  else do pure (sign * (← floatOf body))

/-! ### Truth values, times and bytes -/

/-- The truth value of a scalar. -/
def readBool (text : Text) : Except Fault Bool :=
  let word := lower text
  if word.string?.any ["yes", "true", "on"].contains then .ok true
  else if word.string?.any ["no", "false", "off"].contains then .ok false
  else .error (.notBool word)

/-- The first six digits of a fraction, filled up with zeros. -/
def microseconds (fraction : List Char) : Nat :=
  decimalValue ((fraction ++ List.replicate 6 '0').take 6)

/-- The day or the time of a scalar. -/
def readTime (text : List Char) : Except Fault Scalar :=
  match Tag.time? (Tag.dropLineFeed text) with
  | none => .error .notTime
  | some t => do
    let date : Date := ⟨decimalValue t.year, decimalValue t.month, decimalValue t.day⟩
    match t.clock with
    | none =>
      (Calendar.checkDate date).mapError .calendar
      pure (.date date)
    | some (hour, minute, second, fraction) =>
      let offset : Option Int := t.zone.map fun (sign, hours, minutes) =>
        let span : Int := decimalValue hours * 60 + decimalValue minutes
        if sign = some '-' then -span else span
      let moment : DateTime := {
        date
        hour := decimalValue hour
        minute := decimalValue minute
        second := decimalValue second
        microsecond := microseconds fraction
        offset }
      (Calendar.check moment).mapError .calendar
      pure (.moment moment)

/-- The number of six bits that a character stands for. -/
def sixBits? (c : Char) : Option Nat :=
  if 'A' ≤ c && c ≤ 'Z' then some (c.toNat - 0x41)
  else if 'a' ≤ c && c ≤ 'z' then some (c.toNat - 0x61 + 26)
  else if isDigit c then some (c.toNat - 0x30 + 52)
  else if c == '+' then some 62
  else if c == '/' then some 63
  else none

/-- The bytes of a row of characters of six bits each, four of which make three bytes. Other
characters do not count, and padding ends the row where it completes a group. `have` characters of
the group have been read, `left` are the bits of the last one still to be used, and `pads` counts
the padding since then. -/
def bytesOf (read left pads : Nat) : List Char → Except Fault (List UInt8)
  | [] => if read = 0 then .ok [] else .error .value
  | c :: cs =>
    if c == '=' then
      if 2 ≤ read then
        if 4 ≤ read + pads + 1 then .ok [] else bytesOf read left (pads + 1) cs
      else bytesOf read left pads cs
    else match sixBits? c with
      | none => bytesOf read left pads cs
      | some n =>
        match read with
        | 0 => bytesOf 1 n 0 cs
        | 1 => do pure (UInt8.ofNat (left * 4 + n / 16) :: (← bytesOf 2 (n % 16) 0 cs))
        | 2 => do pure (UInt8.ofNat (left * 16 + n / 4) :: (← bytesOf 3 (n % 4) 0 cs))
        | _ => do pure (UInt8.ofNat (left * 64 + n) :: (← bytesOf 0 0 0 cs))

/-- The bytes of a scalar, whose characters must be ASCII. -/
def readBytes (text : List Char) : Except Fault (List UInt8) :=
  if text.all fun c => c.toNat < 0x80 then bytesOf 0 0 0 text else .error .value

end Stepwise.Yaml
