import Stepwise.Text.Digits

/-!
# Tags

What a node is read as. A node without a tag of its own is a list or a mapping by its form; a plain
scalar is read as the first kind of data whose written form it has, and as a text if it has none.
-/

namespace Stepwise.Yaml

open Stepwise.Text

/-- What a node is read as. -/
inductive Tag where
  | null
  | bool
  | int
  | float
  | timestamp
  | text
  | binary
  | sequence
  | mapping
  | set
  | orderedMap
  | pairs
  /-- the key under which other mappings are put in -/
  | merge
  /-- the key under which a mapping keeps the value it stands for -/
  | value
  | other (name : String)
  deriving DecidableEq, Repr

namespace Tag

/-- The beginning of the names of the tags that are known. -/
def space : String := "tag:yaml.org,2002:"

/-- The tags that are known, by their short names. -/
def known : List (String × Tag) :=
  [("null", null), ("bool", bool), ("int", int), ("float", float), ("timestamp", timestamp),
    ("str", text), ("binary", binary), ("seq", sequence), ("map", mapping), ("set", set),
    ("omap", orderedMap), ("pairs", pairs), ("merge", merge), ("value", value)]

/-- The tag with a name. -/
def ofName (name : String) : Tag :=
  match known.find? fun (short, _) => space ++ short == name with
  | some (_, tag) => tag
  | none => other name

/-! ### The written forms of plain scalars -/

/-- The parts of a row between the occurrences of an element. -/
def parts {α : Type} [DecidableEq α] (sep : α) : List α → List (List α)
  | [] => [[]]
  | c :: cs =>
    if c = sep then [] :: parts sep cs
    else match parts sep cs with
      | [] => [[c]]
      | p :: ps => (c :: p) :: ps

/-- A text without its sign. -/
def unsigned : List Char → List Char
  | '+' :: cs | '-' :: cs => cs
  | cs => cs

/-- Whether a character is a digit or an underscore. -/
def isDigitLike (c : Char) : Bool := isDigit c || c == '_'

/-- Whether a text begins with a digit and goes on with digits and underscores. -/
def isDigits : List Char → Bool
  | c :: cs => isDigit c && cs.all isDigitLike
  | [] => false

/-- Whether a text is a number below sixty of one or two digits. -/
def isSixtieth : List Char → Bool
  | [c] => isDigit c
  | [c, d] => '0' ≤ c && c ≤ '5' && isDigit d
  | _ => false

/-- Whether a text is not empty and all its characters have a property. -/
def isRow (p : Char → Bool) (cs : List Char) : Bool := !cs.isEmpty && cs.all p

/-- Whether a text has the form of a whole number, in base two, eight, ten, sixteen or sixty. -/
def isInt (cs : List Char) : Bool :=
  match unsigned cs with
  | ['0'] => true
  | '0' :: 'b' :: ds => isRow (fun c => c == '0' || c == '1' || c == '_') ds
  | '0' :: 'x' :: ds => isRow (fun c => (hexValue? c).isSome || c == '_') ds
  | '0' :: ds => isRow (fun c => ('0' ≤ c && c ≤ '7') || c == '_') ds
  | ds =>
    match parts ':' ds with
    | first :: rest => isDigits first && rest.all isSixtieth
    | [] => false

/-- Whether a text is empty or an exponent with a sign. -/
def isExponent : List Char → Bool
  | [] => true
  | e :: s :: ds => (e == 'e' || e == 'E') && (s == '+' || s == '-') && isRow isDigit ds
  | _ => false

/-- Whether a text is a row of digits and underscores and then an exponent, if any. -/
def isFraction (cs : List Char) : Bool := isExponent (cs.dropWhile isDigitLike)

/-- Whether a text has the form of a number with a point, in base ten or sixty. -/
def isFloat (cs : List Char) : Bool :=
  let body := unsigned cs
  let text := String.ofList cs
  if [".nan", ".NaN", ".NAN"].contains text then true
  else if [".inf", ".Inf", ".INF"].contains (String.ofList body) then true
  else match cs with
    | '.' :: d :: rest => isDigit d && isFraction rest
    | _ =>
      match parts '.' body with
      | [whole, fraction] =>
        match parts ':' whole with
        | [digits] => isDigits digits && isFraction fraction
        | first :: rest => isDigits first && rest.all isSixtieth && fraction.all isDigitLike
        | [] => false
      | _ => false

/-- Takes digits off a text, at least `least` and at most `most`. -/
def takeDigits (least most : Nat) (cs : List Char) : Option (List Char × List Char) :=
  let ds := (cs.take most).takeWhile isDigit
  if ds.length < least then none else some (ds, cs.drop ds.length)

/-- Takes a character off a text. -/
def takeChar (c : Char) : List Char → Option (List Char)
  | d :: cs => if c = d then some cs else none
  | [] => none

/-- The parts of a written time. -/
structure TimeText where
  year : List Char
  month : List Char
  day : List Char
  /-- hour, minute, second and fraction -/
  clock : Option (List Char × List Char × List Char × List Char) := none
  /-- the letter of universal time (as no digits at all), or sign, hours and minutes of an offset -/
  zone : Option (Option Char × List Char × List Char) := none

/-- Whether a character is a space or a tabulator. -/
def isSpacing (c : Char) : Bool := c == ' ' || c == '\t'

/-- The zone at the end of a time, with space before it. -/
def zone? (cs : List Char) : Option (Option (Option Char × List Char × List Char)) :=
  if cs.isEmpty then some none
  else match cs.dropWhile isSpacing with
    | ['Z'] => some (some (none, [], []))
    | s :: rest =>
      if s == '+' || s == '-' then do
        let (hours, rest) ← takeDigits 1 2 rest
        if rest.isEmpty then pure (some (some s, hours, []))
        else
          let (minutes, rest) ← takeDigits 2 2 (← takeChar ':' rest)
          if rest.isEmpty then pure (some (some s, hours, minutes)) else none
      else none
    | [] => none

/-- What stands between a day and a time of day: a letter or space. -/
def afterDay? (cs : List Char) : Option (List Char) :=
  match cs with
  | 'T' :: rest | 't' :: rest => some rest
  | c :: _ => if isSpacing c then some (cs.dropWhile isSpacing) else none
  | [] => none

/-- The parts of a day, and of a time of day behind it if there is one. -/
def time? (cs : List Char) : Option TimeText := do
  let (year, rest) ← takeDigits 4 4 cs
  let (month, rest) ← takeDigits 1 2 (← takeChar '-' rest)
  let (day, rest) ← takeDigits 1 2 (← takeChar '-' rest)
  if rest.isEmpty then pure { year, month, day }
  else
    let (hour, rest) ← takeDigits 1 2 (← afterDay? rest)
    let (minute, rest) ← takeDigits 2 2 (← takeChar ':' rest)
    let (second, rest) ← takeDigits 2 2 (← takeChar ':' rest)
    let (fraction, rest) := match rest with
      | '.' :: rest => rest.span isDigit
      | rest => ([], rest)
    let zone ← zone? rest
    pure { year, month, day, clock := some (hour, minute, second, fraction), zone }

/-- Whether a text has the form of a time. A day alone must have two digits for month and day. -/
def isTimestamp (cs : List Char) : Bool :=
  match time? cs with
  | some t => t.clock.isSome || (t.month.length == 2 && t.day.length == 2)
  | none => false

/-- A text without a line feed at its end. -/
def dropLineFeed (cs : List Char) : List Char := if cs.getLast? = some '\n' then cs.dropLast else cs

/-- The words for truth values. -/
def boolWords : List String :=
  ["yes", "Yes", "YES", "no", "No", "NO", "true", "True", "TRUE", "false", "False", "FALSE",
    "on", "On", "ON", "off", "Off", "OFF"]

/-- The words for the null value. -/
def nullWords : List String := ["~", "null", "Null", "NULL"]

/-- What a plain scalar is read as. -/
def ofPlain (cs : List Char) : Tag :=
  let body := dropLineFeed cs
  let word := String.ofList body
  if cs.isEmpty then null
  else if boolWords.contains word then bool
  else if isFloat body then float
  else if isInt body then int
  else if word = "<<" then merge
  else if nullWords.contains word then null
  else if isTimestamp body then timestamp
  else if word = "=" then value
  else if ["!", "&", "*"].contains word then other (space ++ "yaml")
  else text

end Tag

end Stepwise.Yaml
