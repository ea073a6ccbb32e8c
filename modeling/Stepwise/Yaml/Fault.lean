import Stepwise.Calendar
import Stepwise.Decimal.Limit
import Stepwise.Text.Quoted

/-!
# What can be wrong with a YAML text

One constructor for each stage at which a text may be refused, and one for each way in which a
scalar with a number, a time or a truth value for its tag may be malformed.
-/

namespace Stepwise.Yaml

/-- Why a YAML text was not read. -/
inductive Fault where
  /-- a character that no text may hold -/
  | character
  /-- no token can be read at a place -/
  | token
  /-- the tokens form no document -/
  | layout
  /-- an alias without its anchor, an anchor given twice or a second document -/
  | document
  /-- collections stand, or are merged, too deep in others -/
  | tooDeep
  /-- a node does not fit its tag -/
  | value
  /-- a mapping stands for a scalar through too many others or through itself -/
  | endless
  /-- a text is no whole number in a base -/
  | notInt (base : Nat) (text : Text)
  /-- a whole number has too many digits -/
  | longInt (digits : Nat)
  /-- a text is no number of double width -/
  | notFloat (text : Text)
  /-- a number in base sixty has so many digits that the unit of the first one is out of range -/
  | overflow
  /-- a number has no digits at all -/
  | emptyNumber
  /-- a text is no truth value -/
  | notBool (text : Text)
  /-- a text has not the form of a time -/
  | notTime
  /-- a time is no text, but a mapping that stands for one -/
  | timeNotText
  /-- a part of a time is out of range -/
  | calendar (fault : Calendar.Fault)
  /-- an escape names a number that is no code point; `wide` if it needs more than 31 bits -/
  | codePoint (wide : Bool)
  deriving DecidableEq, Repr

/-- The text of a fault, where it has one. -/
def Fault.message? : Fault → Option String
  | character | token | layout | document | value => none
  | tooDeep | endless => some "maximum recursion depth exceeded"
  | notInt base text =>
    some ("invalid literal for int() with base " ++ toString base ++ ": " ++
      String.ofList ((Text.quoted text).toList.take 200))
  | longInt digits => some (Decimal.tooLongToRead digits)
  | notFloat text => some ("could not convert string to float: " ++ Text.quoted text)
  | overflow => some "int too large to convert to float"
  | emptyNumber => some "string index out of range"
  | notBool text => some (Text.quoted text)
  | notTime => some "'NoneType' object has no attribute 'groupdict'"
  | timeNotText => some "expected string or bytes-like object, got 'list'"
  | calendar fault => some fault.message
  | codePoint wide =>
    some (if wide then "Python int too large to convert to C int"
      else "chr() arg not in range(0x110000)")

end Stepwise.Yaml
