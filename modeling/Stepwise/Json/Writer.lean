import Stepwise.Decimal.Notation
import Stepwise.Json.Reader

/-!
# Writing JSON text

Values as JSON text in ASCII: members and elements in order, a comma and a space between them, a
colon and a space behind a name. Characters outside the printable ASCII range are written by their
numbers of sixteen bits. A member of an enumeration is written as the value it stands for, where
that is allowed; sets, bytes and dates cannot be written, nor can what stands too deep in other
values.
-/

namespace Stepwise.Json

open Stepwise.Text

/-- Why a value cannot be written. -/
inductive WriteError where
  | notWritable (type : String)
  | badName (type : String)
  | longNumber
  | tooDeep
  deriving DecidableEq, Repr

/-- The text of an error. -/
def WriteError.message : WriteError → String
  | notWritable type => "Object of type " ++ type ++ " is not JSON serializable"
  | badName type => "keys must be str, int, float, bool or None, not " ++ type
  | longNumber => Decimal.tooLongToWrite
  | tooDeep => "maximum recursion depth exceeded while encoding a JSON object"

/-- A number of sixteen bits as an escape. -/
def unitEscape (n : Nat) : List Char := '\\' :: 'u' :: hex 4 n

/-- A character inside a text. -/
def escapedChar (c : Char) : List Char :=
  match c with
  | '"' => ['\\', '"']
  | '\\' => ['\\', '\\']
  | '\n' => ['\\', 'n']
  | '\r' => ['\\', 'r']
  | '\t' => ['\\', 't']
  | '\x08' => ['\\', 'b']
  | '\x0c' => ['\\', 'f']
  | c =>
    if ' ' ≤ c ∧ c ≤ '~' then [c]
    else if c.toNat < 0x10000 then unitEscape c.toNat
    else
      let (high, low) := CodePoint.pair c
      unitEscape (CodePoint.surrogate high).number ++ unitEscape (CodePoint.surrogate low).number

/-- A code point inside a text. -/
def escapedPoint : CodePoint → List Char
  | .char c => escapedChar c
  | .surrogate n => unitEscape (CodePoint.surrogate n).number

/-- A text in quotation marks. -/
def writtenText (t : Text) : List Char := '"' :: t.flatMap escapedPoint ++ ['"']

/-- The words for numbers without digits. -/
def words : Decimal.Words := ⟨"Infinity", "NaN"⟩

/-- A whole number. -/
def writtenInt (i : Int) : Except WriteError (List Char) :=
  let ds := decimal i.natAbs
  if Decimal.maxDigits < ds.length then .error .longNumber
  else .ok (if i < 0 then '-' :: ds else ds)

/-- A scalar. -/
def writtenScalar : Scalar → Except WriteError (List Char)
  | .null => .ok "null".toList
  | .bool b => .ok (if b then "true".toList else "false".toList)
  | .int i => writtenInt i
  | .float x => .ok (Decimal.notate words x).toList
  | .text t => .ok (writtenText t)
  | s => .error (.notWritable s.typeName)

/-- A scalar as the name of a member: a text as it is, any other in quotation marks. -/
def writtenName : Scalar → Except WriteError (List Char)
  | .text t => .ok (writtenText t)
  | .bytes _ => .error (.badName "bytes")
  | .date _ => .error (.badName "date")
  | .moment _ => .error (.badName "datetime")
  | s => do pure ('"' :: (← writtenScalar s) ++ ['"'])

/-- What stands between two members or elements. -/
def comma : List Char := [',', ' ']

/-- What stands behind the name of a member. -/
def colon : List Char := [':', ' ']

mutual

/-- A value whose parts stand at most `room` deep in each other; `members` tells whether members of
enumerations may be written. -/
def written (members : Bool) : Nat → Value → Except WriteError (List Char)
  | _, .scalar s => writtenScalar s
  | _, .completion c => .ok (writtenText c.spelling)
  | room, .list xs | room, .tuple xs =>
    match room with
    | 0 => .error .tooDeep
    | room + 1 => do pure ('[' :: (← writtenElements members room xs) ++ [']'])
  | room, .dict es =>
    match room with
    | 0 => .error .tooDeep
    | room + 1 => do pure ('\x7b' :: (← writtenMembers members room es) ++ ['\x7d'])
  | room, .member enum v =>
    if members then
      match room with
      | 0 => .error .tooDeep
      | room + 1 => written members room v
    else .error (.notWritable enum)
  | _, v => .error (.notWritable v.typeName)

/-- The elements of an array. -/
def writtenElements (members : Bool) : Nat → List Value → Except WriteError (List Char)
  | _, [] => .ok []
  | room, [x] => written members room x
  | room, x :: xs => do
    let first ← written members room x
    pure (first ++ comma ++ (← writtenElements members room xs))

/-- The members of an object. -/
def writtenMembers (members : Bool) : Nat → List (Scalar × Value) → Except WriteError (List Char)
  | _, [] => .ok []
  | room, [(k, v)] => do
    let name ← writtenName k
    pure (name ++ colon ++ (← written members room v))
  | room, (k, v) :: es => do
    let name ← writtenName k
    let first ← written members room v
    pure (name ++ colon ++ first ++ comma ++ (← writtenMembers members room es))

end

/-- The JSON text of a value. -/
def write [Limits] (members : Bool) (v : Value) : Except WriteError String :=
  (written members Limits.writing v).map String.ofList

end Stepwise.Json
