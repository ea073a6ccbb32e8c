import Stepwise.Decimal.Limit
import Stepwise.Decimal.Notation
import Stepwise.Text.Quoted
import Stepwise.Value.Basic

/-!
# Values in messages

The text of a value inside a message: texts in quotation marks, numbers in their shortest notation,
collections in brackets with commas between their parts, and three dots where a collection meets
itself. A value is not to be shown if it holds a whole number beyond the limit on digits or goes too
deep.
-/

namespace Stepwise

/-- The words for numbers without digits in messages. -/
def messageWords : Decimal.Words := ⟨"inf", "nan"⟩

/-- The text of a scalar inside a message. -/
def Scalar.display : Scalar → String
  | null => "None"
  | bool b => if b then "True" else "False"
  | int i => toString i
  | float x => Decimal.notate messageWords x
  | text t => Text.quoted t
  | bytes bs => Text.quotedBytes bs
  | date d => Calendar.showDate d
  | moment t => Calendar.showDateTime t

namespace Value

/-- Parts with commas between them. -/
def separated (parts : List String) : String := ", ".intercalate parts

mutual

/-- The text of a value inside a message. -/
def display : Value → String
  | scalar s => s.display
  | list xs => "[" ++ separated (displayAll xs) ++ "]"
  | dict entries => "\x7b" ++ separated (displayEntries entries) ++ "\x7d"
  | set xs => if xs.isEmpty then "set()" else "\x7b" ++ separated (displayAll xs) ++ "\x7d"
  | tuple xs =>
    "(" ++ separated (displayAll xs) ++ (if xs.length = 1 then "," else "") ++ ")"
  | completion c => "<CompletionType." ++ c.constant ++ ": " ++ Text.quoted c.spelling ++ ">"
  | member enum v => "<" ++ enum ++ ": " ++ display v ++ ">"
  | again isDict => if isDict then "\x7b...\x7d" else "[...]"

/-- The texts of values. -/
def displayAll : List Value → List String
  | [] => []
  | x :: xs => display x :: displayAll xs

/-- The texts of the entries of a mapping. -/
def displayEntries : List (Scalar × Value) → List String
  | [] => []
  | (k, v) :: es => (k.display ++ ": " ++ display v) :: displayEntries es

end

/-- A value written into a text as such: a text stands for itself. -/
def plain : Value → Text
  | text t => t
  | v => display v

/-! ### What cannot be shown -/

/-- Why a value cannot be shown. -/
inductive Hindrance where
  /-- a whole number beyond the limit on digits -/
  | longNumber
  /-- a part that stands too deep in others -/
  | tooDeep
  deriving DecidableEq, Repr

/-- The text of a hindrance. -/
def Hindrance.message : Hindrance → String
  | longNumber => Decimal.tooLongToWrite
  | tooDeep => "maximum recursion depth exceeded while getting the repr of an object"

/-- The name of the type of exception that a hindrance raises. -/
def Hindrance.typeName : Hindrance → String
  | longNumber => "ValueError"
  | tooDeep => "RecursionError"

/-- What keeps a scalar from being shown. -/
def scalarHindrance? : Scalar → Option Hindrance
  | .int i => if Decimal.isTooLong i then some .longNumber else none
  | _ => none

mutual

/-- The first thing, in the order in which parts are shown, that keeps a value from being shown
whose parts may stand `room` deep in each other. -/
def hindrance? : Nat → Value → Option Hindrance
  | 0, _ => some .tooDeep
  | _ + 1, scalar s => scalarHindrance? s
  | room + 1, list xs | room + 1, set xs | room + 1, tuple xs => firstHindrance? room xs
  | room + 1, dict entries => firstEntryHindrance? room entries
  | room + 1, member _ v => hindrance? room v
  | _ + 1, completion _ | _ + 1, again _ => none

/-- The first thing that keeps one of some values from being shown. -/
def firstHindrance? : Nat → List Value → Option Hindrance
  | _, [] => none
  | room, x :: xs => hindrance? room x <|> firstHindrance? room xs

/-- The first thing that keeps a key or a value of some entries from being shown. -/
def firstEntryHindrance? : Nat → List (Scalar × Value) → Option Hindrance
  | _, [] => none
  | room, (k, v) :: es =>
    scalarHindrance? k <|> hindrance? room v <|> firstEntryHindrance? room es

end

end Value

end Stepwise
