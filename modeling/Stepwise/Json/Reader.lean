import Stepwise.Decimal.Limit
import Stepwise.Decimal.Reading
import Stepwise.Limits

/-!
# Reading JSON text

A reader of values that names the first problem of a text and its place. Beyond the standard it
takes the three words `NaN`, `Infinity` and `-Infinity`; a surrogate may stand alone, and two of
them are joined only where both are escaped; whole numbers may have only so many digits, and arrays
and objects stand only so deep in each other; of the members of an object with one name the last one
counts, at the place of the first. Inside the reader a place is the number of characters left, so
that it needs no counter.
-/

namespace Stepwise.Json

open Stepwise.Text

/-- What can be wrong with a text at a place. -/
inductive Problem where
  | byteOrderMark
  | expectedValue
  | expectedName
  | expectedColon
  | expectedComma
  | extraData
  | unterminatedText
  | controlCharacter
  | badEscape
  | badNumberEscape
  deriving DecidableEq, Repr

/-- The words for a problem. -/
def Problem.words : Problem → String
  | byteOrderMark => "Unexpected UTF-8 BOM (decode using utf-8-sig)"
  | expectedValue => "Expecting value"
  | expectedName => "Expecting property name enclosed in double quotes"
  | expectedColon => "Expecting ':' delimiter"
  | expectedComma => "Expecting ',' delimiter"
  | extraData => "Extra data"
  | unterminatedText => "Unterminated string starting at"
  | controlCharacter => "Invalid control character at"
  | badEscape => "Invalid \\escape"
  | badNumberEscape => "Invalid \\uXXXX escape"

/-- Why a text was not read. -/
inductive Fault where
  /-- a problem before the last `left` characters -/
  | problem (p : Problem) (left : Nat)
  /-- a whole number with too many digits -/
  | longNumber (digits : Nat)
  /-- an array, or else an object, that stands too deep in others -/
  | tooDeep (isArray : Bool)
  deriving DecidableEq, Repr

/-- Whether a character may stand between the parts of a text. -/
def isSpace (p : CodePoint) : Bool := p.has fun c => c == ' ' || c == '\t' || c == '\n' || c == '\r'

/-- The text behind leading space. -/
def skipSpace (cs : Text) : Text := cs.dropWhile isSpace

/-- The number that a digit stands for in base sixteen. -/
def digit? : CodePoint → Option Nat
  | .char c => hexValue? c
  | .surrogate _ => none

/-- The number of four digits in base sixteen. -/
def unit? (a b c d : CodePoint) : Option Nat := do
  pure (((← digit? a) * 16 + (← digit? b)) * 256 + (← digit? c) * 16 + (← digit? d))

/-- The character for the letter behind a backslash. -/
def escaped? : CodePoint → Option Char
  | .char '"' => some '"'
  | .char '\\' => some '\\'
  | .char '/' => some '/'
  | .char 'b' => some '\x08'
  | .char 'f' => some '\x0c'
  | .char 'n' => some '\n'
  | .char 'r' => some '\r'
  | .char 't' => some '\t'
  | _ => none

/-- Whether a text begins with the escape of a number. -/
def beginsUnit : Text → Bool
  | .char '\\' :: .char 'u' :: _ => true
  | _ => false

/-- The code point of an escape in front of the text `t` that was read from `rest` behind it. Two
surrogates that are both escaped are joined. -/
def unitOnto (p : CodePoint) (rest t : Text) : Text :=
  if beginsUnit rest then joinOnto p t else p :: t

/-- Reads a text behind its opening quotation mark. All of `start` was left behind the mark. -/
def textBody (start : Text) : Text → Except Fault (Text × Text)
  | [] => .error (.problem .unterminatedText (start.length + 1))
  | .char '"' :: rest => .ok ([], rest)
  | [.char '\\'] => .error (.problem .unterminatedText (start.length + 1))
  | .char '\\' :: .char 'u' :: a :: b :: c :: d :: rest =>
    match unit? a b c d with
    | none => .error (.problem .badNumberEscape (rest.length + 5))
    | some n =>
      if rest.isEmpty then .error (.problem .badNumberEscape (rest.length + 5))
      else do
        let (t, rest') ← textBody start rest
        pure (unitOnto (CodePoint.ofNumber n) rest t, rest')
  | .char '\\' :: e :: rest =>
    if e = .char 'u' then .error (.problem .badNumberEscape (rest.length + 1))
    else match escaped? e with
      | none => .error (.problem .badEscape (rest.length + 2))
      | some c => do
        let (t, rest') ← textBody start rest
        pure (.char c :: t, rest')
  | p :: rest =>
    if p.has (· < ' ') then .error (.problem .controlCharacter (rest.length + 1))
    else do
      let (t, rest') ← textBody start rest
      pure (p :: t, rest')

/-- Reads a text behind its opening quotation mark. -/
def text (rest : Text) : Except Fault (Text × Text) := textBody rest rest

/-- The digits that a text begins with, and the rest. -/
def leadingDigits : Text → List Char × Text
  | .char c :: rest =>
    if isDigit c then
      let (ds, rest) := leadingDigits rest
      (c :: ds, rest)
    else ([], .char c :: rest)
  | rest => ([], rest)

/-- The digits that a text begins with, if there are any, and the rest. -/
def someDigits? (cs : Text) : Option (List Char × Text) :=
  let (ds, rest) := leadingDigits cs
  if ds.isEmpty then none else some (ds, rest)

/-- The digits behind a point, if at least one follows it, and the rest. -/
def fraction? : Text → Option (List Char × Text)
  | .char '.' :: rest => someDigits? rest
  | _ => none

/-- The sign, where there is one, and the rest. -/
def signOf : Text → Bool × Text
  | .char '-' :: rest => (true, rest)
  | .char '+' :: rest => (false, rest)
  | cs => (false, cs)

/-- The exponent behind its letter, if at least one digit follows, and the rest. -/
def exponent? : Text → Option (Int × Text)
  | e :: rest =>
    if e = .char 'e' ∨ e = .char 'E' then
      let (negative, rest) := signOf rest
      (someDigits? rest).map fun (ds, rest) =>
        (if negative then -(decimalValue ds : Int) else decimalValue ds, rest)
    else none
  | [] => none

/-- The digits before the point: a zero alone, or digits that do not begin with one. -/
def whole? : Text → Option (List Char × Text)
  | .char '0' :: rest => some (['0'], rest)
  | cs => someDigits? cs

/-- Reads a number. One with a point or an exponent is of double width, any other a whole number. -/
def number (cs : Text) : Except Fault (Value × Text) :=
  let (negative, body) := match cs with
    | .char '-' :: rest => (true, rest)
    | _ => (false, cs)
  match whole? body with
  | none => .error (.problem .expectedValue cs.length)
  | some (ds, rest) =>
    let (fs, rest) := (fraction? rest).map (fun (fs, r) => (some fs, r)) |>.getD (none, rest)
    let (ex, rest) := (exponent? rest).map (fun (e, r) => (some e, r)) |>.getD (none, rest)
    if fs.isNone && ex.isNone then
      if Decimal.maxDigits < ds.length then .error (.longNumber ds.length)
      else .ok (.int (if negative then -(decimalValue ds : Int) else decimalValue ds), rest)
    else
      let x := Decimal.nearest (Decimal.numeral ds (fs.getD []) (ex.getD 0))
      .ok (.float (if negative then -x else x), rest)

/-- The infinity of double width. -/
def infinity : Float := 1 / 0

/-- The words that stand for values. -/
def constants : List (String × Value) :=
  [("null", .null), ("true", .bool true), ("false", .bool false),
    ("NaN", .float (infinity - infinity)), ("Infinity", .float infinity),
    ("-Infinity", .float (-infinity))]

/-- The rest of a text that begins with a word. -/
def behind? : List Char → Text → Option Text
  | [], cs => some cs
  | c :: word, .char d :: cs => if c = d then behind? word cs else none
  | _ :: _, _ => none

/-- The value of the word that a text begins with, and the rest. -/
def constant? (cs : Text) : Option (Value × Text) :=
  constants.findSome? fun (word, v) => (behind? word.toList cs).map fun rest => (v, rest)

mutual

/-- Reads a value whose arrays and objects stand at most `room` deep in each other. The first
argument bounds the number of steps. -/
def value : Nat → Nat → Text → Except Fault (Value × Text)
  | 0, _, cs => .error (.problem .expectedValue cs.length)
  | fuel + 1, room, cs =>
    match cs, room with
    | .char '"' :: rest, _ => do
      let (t, rest) ← text rest
      pure (.text t, rest)
    | .char '\x7b' :: _, 0 => .error (.tooDeep false)
    | .char '\x7b' :: rest, room + 1 => do
      match skipSpace rest with
      | .char '\x7d' :: rest => pure (.dict [], rest)
      | rest =>
        let (es, rest) ← members fuel room rest
        pure (.dict (Entries.ofList es), rest)
    | .char '[' :: _, 0 => .error (.tooDeep true)
    | .char '[' :: rest, room + 1 => do
      match skipSpace rest with
      | .char ']' :: rest => pure (.list [], rest)
      | rest =>
        let (xs, rest) ← elements fuel room rest
        pure (.list xs, rest)
    | cs, _ =>
      match constant? cs with
      | some read => .ok read
      | none => number cs

/-- Reads the elements of an array up to its end, the first one next. -/
def elements : Nat → Nat → Text → Except Fault (List Value × Text)
  | 0, _, cs => .error (.problem .expectedValue cs.length)
  | fuel + 1, room, cs => do
    let (x, rest) ← value fuel room cs
    match skipSpace rest with
    | .char ']' :: rest => pure ([x], rest)
    | .char ',' :: rest =>
      let (xs, rest) ← elements fuel room (skipSpace rest)
      pure (x :: xs, rest)
    | rest => throw (.problem .expectedComma rest.length)

/-- Reads the members of an object up to its end, the first one next. -/
def members : Nat → Nat → Text → Except Fault (List (Scalar × Value) × Text)
  | 0, _, cs => .error (.problem .expectedName cs.length)
  | fuel + 1, room, cs => do
    match cs with
    | .char '"' :: rest =>
      let (k, rest) ← text rest
      match skipSpace rest with
      | .char ':' :: rest =>
        let (v, rest) ← value fuel room (skipSpace rest)
        match skipSpace rest with
        | .char '\x7d' :: rest => pure ([(.text k, v)], rest)
        | .char ',' :: rest =>
          let (es, rest) ← members fuel room (skipSpace rest)
          pure ((.text k, v) :: es, rest)
        | rest => throw (.problem .expectedComma rest.length)
      | rest => throw (.problem .expectedColon rest.length)
    | cs => throw (.problem .expectedName cs.length)

end

/-- Reads a whole text, which holds one value and space around it. -/
def document (depth : Nat) (cs : Text) : Except Fault Value := do
  if cs.head? = some (.char '\ufeff') then throw (.problem .byteOrderMark cs.length)
  let (v, rest) ← value (2 * cs.length + 2) depth (skipSpace cs)
  match skipSpace rest with
  | [] => pure v
  | rest => throw (.problem .extraData rest.length)

/-- Why a text was not read, with the place counted from its start. -/
inductive ReadError where
  /-- a problem in a line and column, both counted from one, and at a place counted from zero -/
  | malformed (p : Problem) (line column place : Nat)
  | longNumber (digits : Nat)
  | tooDeep (isArray : Bool)
  deriving DecidableEq, Repr

/-- The text of an error. -/
def ReadError.message : ReadError → String
  | malformed p line column place =>
    p.words ++ ": line " ++ toString line ++ " column " ++ toString column ++ " (char " ++
      toString place ++ ")"
  | longNumber digits => Decimal.tooLongToRead digits
  | tooDeep isArray =>
    "maximum recursion depth exceeded while decoding a JSON " ++
      (if isArray then "array" else "object") ++ " from a unicode string"

/-- A fault with its place counted from the start of the text. -/
def Fault.located (cs : Text) : Fault → ReadError
  | problem p left =>
    let place := cs.length - left
    let before := cs.take place
    let column := (before.reverse.takeWhile (· != .char '\n')).length + 1
    .malformed p (before.count (.char '\n') + 1) column place
  | longNumber digits => .longNumber digits
  | tooDeep isArray => .tooDeep isArray

/-- Reads a JSON text. -/
def read [Limits] (cs : Text) : Except ReadError Value :=
  (document Limits.reading cs).mapError (Fault.located cs)

end Stepwise.Json
