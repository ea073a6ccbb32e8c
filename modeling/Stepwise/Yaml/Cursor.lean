/-!
# A place in a YAML text

The text that is left at a place, with the line and the column of the place. Behind the last
character the null character shows, which no text holds.
-/

namespace Stepwise.Yaml

/-- Whether a character breaks a line. -/
def isBreak (c : Char) : Bool :=
  c == '\n' || c == '\r' || c == '\u0085' || c == '\u2028' || c == '\u2029'

/-- Whether a character shows the end of the text. -/
def isEnd (c : Char) : Bool := c == '\x00'

/-- Whether a character ends a line. -/
def endsLine (c : Char) : Bool := isEnd c || isBreak c

/-- Whether a character is a space or ends a line. -/
def isSpaceOrEnd (c : Char) : Bool := c == ' ' || endsLine c

/-- Whether a character is a space, a tabulator or ends a line. -/
def isGap (c : Char) : Bool := c == '\t' || isSpaceOrEnd c

/-- A place in a text. -/
structure Cursor where
  rest : List Char
  /-- the number of characters of the whole text -/
  length : Nat
  index : Nat := 0
  line : Nat := 0
  column : Nat := 0

namespace Cursor

/-- The character `k` places further on. -/
def peek (c : Cursor) (k : Nat := 0) : Char := (c.rest[k]?).getD '\x00'

/-- The next place. A break starts a new line, a carriage return only if no line feed follows; a
byte order mark takes no column. -/
def step (c : Cursor) : Cursor :=
  match c.rest with
  | [] => c
  | ch :: rest =>
    let next : Cursor := { c with rest, index := c.index + 1 }
    if isBreak ch && !(ch == '\r' && rest.head? == some '\n') then
      { next with line := c.line + 1, column := 0 }
    else if ch == '\ufeff' then next
    else { next with column := c.column + 1 }

/-- The place `n` characters on. -/
def skip (c : Cursor) : Nat → Cursor
  | 0 => c
  | n + 1 => c.step.skip n

/-- The next characters with a property, and the place behind them. -/
def span (c : Cursor) (p : Char → Bool) : List Char × Cursor :=
  let cs := c.rest.takeWhile p
  (cs, c.skip cs.length)

/-- The place behind the next characters with a property. -/
def skipWhile (c : Cursor) (p : Char → Bool) : Cursor := (c.span p).2

/-- The place behind spaces. -/
def skipSpaces (c : Cursor) : Cursor := c.skipWhile (· == ' ')

/-- The place at the end of the line if a comment begins here. -/
def skipComment (c : Cursor) : Cursor :=
  if c.peek == '#' then c.skipWhile fun ch => !endsLine ch else c

/-- A line break, as the characters it counts as, and the place behind it; nothing if none begins
here. -/
def lineBreak (c : Cursor) : List Char × Cursor :=
  let ch := c.peek
  if ch == '\r' && c.peek 1 == '\n' then (['\n'], c.skip 2)
  else if ch == '\n' || ch == '\r' || ch == '\u0085' then (['\n'], c.step)
  else if isBreak ch then ([ch], c.step)
  else ([], c)

/-- The place where a text begins. -/
def start (cs : List Char) : Cursor := { rest := cs, length := cs.length }

/-- Whether three equal marks and then a gap stand here. -/
def atMarks (c : Cursor) (mark : Char) : Bool :=
  c.peek == mark && c.peek 1 == mark && c.peek 2 == mark && isGap (c.peek 3)

/-- Whether a line that separates documents begins here. -/
def atSeparator (c : Cursor) : Bool := c.atMarks '-' || c.atMarks '.'

/-- A bound on the number of characters still to be read. -/
def fuel (c : Cursor) : Nat := c.length + 1

end Cursor

end Stepwise.Yaml
