import Stepwise.Text.Digits
import Stepwise.Yaml.Token

/-!
# Names, tags and directives

Reading the tokens that begin with an indicator and hold names: anchors, aliases, tags and
directives.
-/

namespace Stepwise.Yaml

open Stepwise.Text

/-- A name of at least one character. -/
def scanName : Scan String := fun c =>
  let (cs, c) := c.span isNameChar
  if cs.isEmpty then .error .token else .ok (String.ofList cs, c)

/-- The name behind the indicator of an anchor or an alias, and what may follow it. -/
def scanAnchorName : Scan String := fun c => do
  let (name, c) ← scanName c.step
  let next := c.peek
  if isGap next || "?:,]\x7d%@`".toList.contains next then pure (name, c) else throw .token

/-- Whether a character may stand in the address part of a tag. -/
def isAddressChar (c : Char) : Bool := c.isAlphanum || "-;/?:@&=+$,_.!~*'()[]%".toList.contains c

/-- The number of two digits in base sixteen. -/
def byte? : List Char → Option (UInt8 × List Char)
  | a :: b :: rest => do
    let h ← hexValue? a
    let l ← hexValue? b
    pure (UInt8.ofNat (h * 16 + l), rest)
  | _ => none

/-- A row of bytes in percent signs, at most `fuel` of them. -/
def scanBytes : Nat → Scan (List UInt8)
  | 0, c => .ok ([], c)
  | fuel + 1, c =>
    if c.peek == '%' then
      match byte? c.step.rest with
      | none => .error .token
      | some (b, _) => do
        let (bs, c) ← scanBytes fuel (c.skip 3)
        pure (b :: bs, c)
    else .ok ([], c)

/-- The characters of the address part of a tag. -/
def scanAddressChars : Nat → Scan (List Char)
  | 0, c => .ok ([], c)
  | fuel + 1, c => do
    let ch := c.peek
    if ch == '%' then
      let (bs, c) ← scanBytes c.fuel c
      match String.fromUTF8? ⟨bs.toArray⟩ with
      | none => throw .token
      | some s =>
        let (cs, c) ← scanAddressChars fuel c
        pure (s.toList ++ cs, c)
    else if isAddressChar ch then
      let (cs, c) ← scanAddressChars fuel c.step
      pure (ch :: cs, c)
    else pure ([], c)

/-- The address part of a tag, which is not empty. -/
def scanAddress : Scan String := fun c => do
  let (cs, after) ← scanAddressChars c.fuel c
  if after.index = c.index then throw .token else pure (String.ofList cs, after)

/-- A handle: an exclamation mark, or a name between two of them. -/
def scanHandle : Scan String := fun c =>
  if c.peek != '!' then .error .token
  else if c.peek 1 == ' ' then .ok ("!", c.step)
  else
    let (cs, after) := c.step.span isNameChar
    if after.peek == '!' then .ok (String.ofList ('!' :: cs ++ ['!']), after.step)
    else .error .token

/-- Whether a tag at a place has a second exclamation mark before the next space. -/
def hasHandle (c : Cursor) : Bool :=
  (c.rest.drop 1).takeWhile (fun ch => !isSpaceOrEnd ch) |>.contains '!'

/-- A tag: a whole address in angle brackets, a lone mark, or a handle and a suffix. -/
def scanTag : Scan Token := fun c => do
  let (token, c) ←
    if c.peek 1 == '<' then do
      let (suffix, c) ← scanAddress (c.skip 2)
      if c.peek == '>' then pure (Token.tag none suffix, c.step) else throw .token
    else if isGap (c.peek 1) then pure (Token.tag none "!", c.step)
    else do
      let (handle, c) ← if hasHandle c then scanHandle c else pure ("!", c.step)
      let (suffix, c) ← scanAddress c
      pure (Token.tag (some handle) suffix, c)
  if isSpaceOrEnd c.peek then pure (token, c) else throw .token

/-- A number of at least one digit. -/
def scanNumber : Scan Nat := fun c =>
  let (cs, c) := c.span isDigit
  if cs.isEmpty then .error .token
  else if Decimal.maxDigits < cs.length then .error (.longInt cs.length)
  else .ok (decimalValue cs, c)

/-- The numbers of a version behind its name. -/
def scanVersion : Scan Directive := fun c => do
  let (major, c) ← scanNumber c.skipSpaces
  if c.peek != '.' then throw .token
  let (minor, c) ← scanNumber c.step
  if isSpaceOrEnd c.peek then pure (.version major minor, c) else throw .token

/-- The handle and the beginning of tags that it stands for. -/
def scanHandleDirective : Scan Directive := fun c => do
  let (name, c) ← scanHandle c.skipSpaces
  if c.peek != ' ' then throw .token
  let (start, c) ← scanAddress c.skipSpaces
  if isSpaceOrEnd c.peek then pure (.handle name start, c) else throw .token

/-- A directive up to the end of its line. -/
def scanDirective : Scan Token := fun c => do
  let (name, c) ← scanName c.step
  if !isSpaceOrEnd c.peek then throw .token
  let (d, c) ←
    if name = "YAML" then scanVersion c
    else if name = "TAG" then scanHandleDirective c
    else pure (.other name, c.skipWhile fun ch => !endsLine ch)
  let ((), c) ← scanLineEnd c
  pure (.directive d, c)

end Stepwise.Yaml
