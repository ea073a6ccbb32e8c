import Stepwise.Text.Quoted

/-!
# Texts in files

A file holds characters only, so a text with surrogates cannot be written into one. The error tells
where the first surrogate stands and how many follow each other from there on.
-/

namespace Stepwise.Text

/-- The surrogates that keep a text from being written: the first one, its place, and the number of
those that follow each other from it on. -/
structure EncodeError where
  first : Fin 0x800
  place : Nat
  count : Nat
  deriving DecidableEq, Repr

/-- The text of the error. -/
def EncodeError.message (e : EncodeError) : String :=
  let surrogates :=
    if e.count = 1 then
      "character '" ++ String.ofList (escape (CodePoint.surrogate e.first).number) ++
        "' in position " ++ toString e.place
    else "characters in position " ++ toString e.place ++ "-" ++ toString (e.place + e.count - 1)
  "'utf-8' codec can't encode " ++ surrogates ++ ": surrogates not allowed"

/-- The first surrogates of a text, those before the text being `place` code points. -/
def encodeError? (place : Nat) : Text → Option EncodeError
  | [] => none
  | .char _ :: t => encodeError? (place + 1) t
  | .surrogate n :: t => some ⟨n, place, (t.takeWhile CodePoint.isSurrogate).length + 1⟩

/-- The string that a text is written as. -/
def encoded (t : Text) : Except EncodeError String :=
  match encodeError? 0 t with
  | some e => .error e
  | none => .ok (String.ofList t.replaced)

end Stepwise.Text
