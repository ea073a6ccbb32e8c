import Stepwise.Text.Basic
import Stepwise.Yaml.Cursor
import Stepwise.Yaml.Fault

/-!
# Tokens

The pieces that a YAML text is made of. Brackets of block collections are tokens too, although the
text shows them by indentation only.
-/

namespace Stepwise.Yaml

/-- An instruction before a document. -/
inductive Directive where
  | version (major minor : Nat)
  /-- a handle that stands for the beginning of tags -/
  | handle (name start : String)
  | other (name : String)
  deriving DecidableEq, Repr

/-- A piece of a text. -/
inductive Token where
  | streamEnd
  | directive (d : Directive)
  | documentStart
  | documentEnd
  | blockSequenceStart
  | blockMappingStart
  | blockEnd
  | flowSequenceStart
  | flowSequenceEnd
  | flowMappingStart
  | flowMappingEnd
  | blockEntry
  | flowEntry
  | key
  | value
  | alias (name : String)
  | anchor (name : String)
  | tag (handle : Option String) (suffix : String)
  | scalar (text : Text) (plain : Bool)
  deriving DecidableEq, Repr

/-- A reader of a piece at a place: what it reads and the place behind it. -/
abbrev Scan (α : Type) := Cursor → Except Fault (α × Cursor)

/-- Whether a character may stand in a name. -/
def isNameChar (c : Char) : Bool := c.isAlphanum || c == '-' || c == '_'

/-- The end of a line on which nothing but a comment may follow. -/
def scanLineEnd : Scan Unit := fun c =>
  let c := c.skipSpaces.skipComment
  if endsLine c.peek then .ok ((), c.lineBreak.2) else .error .token

end Stepwise.Yaml
