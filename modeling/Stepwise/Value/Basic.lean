import Stepwise.Calendar
import Stepwise.Completion
import Stepwise.Decimal.Binary
import Stepwise.Entries
import Stepwise.Text.Basic

/-!
# Values

The data that documents, step results and session metadata hold. A scalar has no parts and can be
the key of a mapping; a value is a scalar or a collection of values. A mapping lists its entries
in the order in which their keys were first entered. Data read from a document may refer to
itself, and such a value is unfolded until it meets itself, where the leaf `again` stands.
-/

namespace Stepwise

/-- Data without parts. -/
inductive Scalar where
  | null
  | bool (b : Bool)
  | int (i : Int)
  | float (x : Float)
  | text (t : Text)
  | bytes (bs : List UInt8)
  | date (d : Date)
  | moment (t : DateTime)

namespace Scalar

/-- What tells two scalars apart: truth values count as the numbers one and zero, and a number is
told by its exact value in whichever form it was given. -/
inductive Key where
  | null
  | number (r : Rat)
  | infinite (negative : Bool)
  | nan
  | text (t : Text)
  | bytes (bs : List UInt8)
  | date (d : Date)
  | local (t : DateTime)
  | instant (microseconds : Int)
  deriving DecidableEq

/-- A hash of a key: equal numbers of any size have equal remainders. -/
instance : Hashable Key where
  hash
    | .null => 1
    | .number r => mixHash (hash (r.num % 0x1fffffffffffffff)) (hash (r.den % 0x1fffffffffffffff))
    | .infinite negative => mixHash 2 (hash negative)
    | .nan => 3
    | .text t => hash t
    | .bytes bs => mixHash 4 (hash bs)
    | .date d => mixHash 5 (hash d)
    | .local t => mixHash 6 (hash t)
    | .instant microseconds => mixHash 7 (hash microseconds)

/-- The key of a number of double width. -/
def floatKey (x : Float) : Key :=
  match Decimal.decode x with
  | .nan => .nan
  | .infinite negative => .infinite negative
  | .finite negative m => .number (if negative then -m.value else m.value)

/-- The key of a scalar. -/
def key : Scalar → Key
  | null => .null
  | bool b => .number (if b then 1 else 0)
  | int i => .number i
  | float x => floatKey x
  | text t => .text t
  | bytes bs => .bytes bs
  | date d => .date d
  | moment t => if t.offset.isSome then .instant (Calendar.instant t) else .local t

/-- Scalars are equal when their keys are. -/
instance : BEq Scalar := ⟨fun a b => a.key == b.key⟩

theorem beq_def (a b : Scalar) : (a == b) = decide (a.key = b.key) := rfl

theorem beq_iff_key_eq {a b : Scalar} : (a == b) = true ↔ a.key = b.key := by
  rw [beq_def, decide_eq_true_eq]

instance : EquivBEq Scalar where
  rfl := beq_iff_key_eq.2 rfl
  symm h := beq_iff_key_eq.2 (beq_iff_key_eq.1 h).symm
  trans h₁ h₂ := beq_iff_key_eq.2 ((beq_iff_key_eq.1 h₁).trans (beq_iff_key_eq.1 h₂))

/-- The hash of a scalar is that of its key. -/
instance : Hashable Scalar := ⟨fun s => hash s.key⟩

instance : LawfulHashable Scalar :=
  ⟨fun _ _ h => congrArg (fun k : Key => hash k) (beq_iff_key_eq.1 h)⟩

@[simp] theorem text_beq_text (s t : Text) : (text s == text t) = (s == t) := by
  rw [Bool.eq_iff_iff, beq_iff_key_eq]; simp [key]

/-- Whether a number is zero. -/
def isZero (x : Float) : Bool := x == 0

/-- Whether a scalar counts as true in a condition. -/
def isTruthy : Scalar → Bool
  | null => false
  | bool b => b
  | int i => i != 0
  | float x => !isZero x
  | text t => !t.isEmpty
  | bytes bs => !bs.isEmpty
  | date _ | moment _ => true

/-- The name of the type of a scalar in messages. -/
def typeName : Scalar → String
  | null => "NoneType"
  | bool _ => "bool"
  | int _ => "int"
  | float _ => "float"
  | text _ => "str"
  | bytes _ => "bytes"
  | date _ => "date"
  | moment _ => "datetime"

end Scalar

/-- Data of any shape. -/
inductive Value where
  | scalar (s : Scalar)
  | list (xs : List Value)
  | dict (entries : List (Scalar × Value))
  | set (xs : List Value)
  | tuple (xs : List Value)
  /-- a completion policy -/
  | completion (c : Completion)
  /-- a member of the enumeration `enum` that stands for a value -/
  | member (enum : String) (v : Value)
  /-- the place where a mapping (or else a list) meets itself -/
  | again (isDict : Bool)

namespace Value

@[match_pattern] abbrev null : Value := .scalar .null
@[match_pattern] abbrev bool (b : Bool) : Value := .scalar (.bool b)
@[match_pattern] abbrev int (i : Int) : Value := .scalar (.int i)
@[match_pattern] abbrev float (x : Float) : Value := .scalar (.float x)
@[match_pattern] abbrev text (t : Text) : Value := .scalar (.text t)

instance : Inhabited Value := ⟨null⟩

/-- Whether a value is the null value. -/
def isNull : Value → Bool
  | null => true
  | _ => false

/-- Whether a value counts as true in a condition: collections do unless they are empty. -/
def isTruthy : Value → Bool
  | scalar s => s.isTruthy
  | list xs | set xs | tuple xs => !xs.isEmpty
  | dict entries => !entries.isEmpty
  | completion _ | member _ _ | again _ => true

/-- The name of the type of a value in messages. -/
def typeName : Value → String
  | scalar s => s.typeName
  | list _ => "list"
  | dict _ => "dict"
  | set _ => "set"
  | tuple _ => "tuple"
  | completion _ => "CompletionType"
  | member enum _ => enum
  | again isDict => if isDict then "dict" else "list"

/-- The text that a value is, if it is one; a policy is the text of its spelling. -/
def text? : Value → Option Text
  | text t => some t
  | completion c => some c.spelling
  | _ => none

/-- The string that a value is, if it is a text without surrogates. -/
def string? (v : Value) : Option String := v.text?.bind Text.string?

end Value

/-- What a document's mapping holds under a name. -/
def Value.field? (entries : Entries Scalar Value) (name : String) : Option Value :=
  entries.get? (.text name)

end Stepwise
