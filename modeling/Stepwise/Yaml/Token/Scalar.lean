import Stepwise.Text.Digits
import Stepwise.Yaml.Token

/-!
# Scalars in a text

Reading the characters of plain, quoted and block scalars. Inside a scalar a single line break
counts as a space, and further breaks as themselves; in a literal block every break counts.
-/

namespace Stepwise.Yaml

open Stepwise.Text

/-! ### Quoted scalars -/

/-- The character for the letter of an escape in double quotes. -/
def escapeChar? : Char → Option Char
  | '0' => some '\x00'
  | 'a' => some '\x07'
  | 'b' => some '\x08'
  | 't' | '\t' => some '\t'
  | 'n' => some '\n'
  | 'v' => some '\x0b'
  | 'f' => some '\x0c'
  | 'r' => some '\r'
  | 'e' => some '\x1b'
  | ' ' => some ' '
  | '"' => some '"'
  | '\\' => some '\\'
  | '/' => some '/'
  | 'N' => some '\u0085'
  | '_' => some '\u00a0'
  | 'L' => some '\u2028'
  | 'P' => some '\u2029'
  | _ => none

/-- The number of digits behind the letter of an escape by number. -/
def escapeWidth? : Char → Option Nat
  | 'x' => some 2
  | 'u' => some 4
  | 'U' => some 8
  | _ => none

/-- The code point with a number. -/
def codePoint (n : Nat) : Except Fault CodePoint :=
  if 0x7fffffff < n then .error (.codePoint true)
  else if 0x10ffff < n then .error (.codePoint false)
  else .ok (CodePoint.ofNumber n)

/-- An escape by `width` digits in base sixteen. -/
def scanNumberEscape (width : Nat) : Scan CodePoint := fun c =>
  match ((List.range width).map fun k => c.peek k).mapM hexValue? with
  | none => .error .token
  | some ds => do
    let p ← codePoint (ds.foldl (fun n d => 16 * n + d) 0)
    pure (p, c.skip width)

/-- Line breaks with the space before them, up to the next other character; no line may separate
documents. -/
def scanQuotedBreaks : Nat → Scan (List Char)
  | 0, c => .ok ([], c)
  | fuel + 1, c =>
    if c.atSeparator then .error .token
    else
      let c := c.skipWhile fun ch => ch == ' ' || ch == '\t'
      if isBreak c.peek then do
        let (b, c) := c.lineBreak
        let (bs, c) ← scanQuotedBreaks fuel c
        pure (b ++ bs, c)
      else .ok ([], c)

/-- Space inside quotes: as it is, or with its first line break folded. -/
def scanQuotedSpace : Scan (List Char) := fun c => do
  let (space, c) := c.span fun ch => ch == ' ' || ch == '\t'
  if isEnd c.peek then throw .token
  if isBreak c.peek then
    let (b, c) := c.lineBreak
    let (bs, c) ← scanQuotedBreaks c.fuel c
    let first := if b != ['\n'] then b else if bs.isEmpty then [' '] else []
    pure (first ++ bs, c)
  else pure (space, c)

/-- Whether a character stands for itself inside quotes. -/
def isQuotedChar (c : Char) : Bool := !(c == '\'' || c == '"' || c == '\\' || isGap c)

/-- Characters inside quotes up to the next space or to the end of the scalar. -/
def scanQuotedChars (double : Bool) : Nat → Scan Text
  | 0, c => .ok ([], c)
  | fuel + 1, c => do
    let ch := c.peek
    if !isEnd ch && isQuotedChar ch then
      let (t, c) ← scanQuotedChars double fuel c.step
      pure (.char ch :: t, c)
    else if !double && ch == '\'' && c.peek 1 == '\'' then
      let (t, c) ← scanQuotedChars double fuel (c.skip 2)
      pure (.char '\'' :: t, c)
    else if (double && ch == '\'') || (!double && (ch == '"' || ch == '\\')) then
      let (t, c) ← scanQuotedChars double fuel c.step
      pure (.char ch :: t, c)
    else if double && ch == '\\' then
      let c := c.step
      match escapeChar? c.peek, escapeWidth? c.peek with
      | some e, _ =>
        let (t, c) ← scanQuotedChars double fuel c.step
        pure (.char e :: t, c)
      | none, some width =>
        let (p, c) ← scanNumberEscape width c.step
        let (t, c) ← scanQuotedChars double fuel c
        pure (p :: t, c)
      | none, none =>
        if isBreak c.peek then
          let (bs, c) ← scanQuotedBreaks c.fuel c.lineBreak.2
          let (t, c) ← scanQuotedChars double fuel c
          pure (ofChars bs ++ t, c)
        else throw .token
    else pure ([], c)

/-- The rest of a quoted scalar up to its closing mark, in turns of characters and space. -/
def scanQuotedRest (double : Bool) : Nat → Scan Text
  | 0, _ => .error .token
  | fuel + 1, c => do
    let (t, c) ← scanQuotedChars double c.fuel c
    if c.peek == (if double then '"' else '\'') then pure (t, c.step)
    else
      let (space, c) ← scanQuotedSpace c
      let (u, c) ← scanQuotedRest double fuel c
      pure (t ++ ofChars space ++ u, c)

/-- A quoted scalar. -/
def scanQuoted (double : Bool) : Scan Token := fun c => do
  let (t, c) ← scanQuotedRest double c.fuel c.step
  pure (.scalar t false, c)

/-! ### Block scalars -/

/-- What becomes of the line breaks at the end of a block. -/
inductive Chomping where
  | strip
  | clip
  | keep
  deriving DecidableEq, Repr

/-- A mark of chomping. -/
def chomping? : Char → Option Chomping
  | '+' => some .keep
  | '-' => some .strip
  | _ => none

/-- A digit of indentation, which is not zero. -/
def scanIncrement : Scan (Option Nat) := fun c =>
  if isDigit c.peek then
    if c.peek == '0' then .error .token else .ok (some (c.peek.toNat - 0x30), c.step)
  else .ok (none, c)

/-- The marks behind the indicator of a block, in either order. -/
def scanBlockHeader : Scan (Chomping × Option Nat) := fun c => do
  let (header, c) ←
    match chomping? c.peek with
    | some chomping => do
      let (increment, c) ← scanIncrement c.step
      pure ((chomping, increment), c)
    | none => do
      let (increment, c) ← scanIncrement c
      match increment, chomping? c.peek with
      | some _, some chomping => pure ((chomping, increment), c.step)
      | _, _ => pure ((.clip, increment), c)
  if isSpaceOrEnd c.peek then pure (header, c) else throw .token

/-- The empty lines before a block and the largest indentation among them. -/
def blockLead : Nat → Nat → Cursor → List Char × Nat × Cursor
  | 0, widest, c => ([], widest, c)
  | fuel + 1, widest, c =>
    if c.peek == ' ' then
      let c := c.step
      blockLead fuel (max widest c.column) c
    else if isBreak c.peek then
      let (b, c) := c.lineBreak
      let (bs, widest, c) := blockLead fuel widest c
      (b ++ bs, widest, c)
    else ([], widest, c)

/-- The place behind spaces, at most up to the column `indent`. -/
def skipIndent (indent : Nat) : Nat → Cursor → Cursor
  | 0, c => c
  | fuel + 1, c => if c.column < indent && c.peek == ' ' then skipIndent indent fuel c.step else c

/-- The line breaks between two lines of a block, and the place where the second may begin. -/
def blockBreaks (indent : Nat) : Nat → Cursor → List Char × Cursor
  | 0, c => ([], c)
  | fuel + 1, c =>
    let c := skipIndent indent c.fuel c
    if isBreak c.peek then
      let (b, c) := c.lineBreak
      let (bs, c) := blockBreaks indent fuel c
      (b ++ bs, c)
    else ([], c)

/-- The lines of a block, its line breaks joined as its style says, and the end of the last line
with the breaks behind it. -/
def blockLines (folded : Bool) (indent : Nat) :
    Nat → List Char → Cursor → List Char × List Char × List Char × Cursor
  | 0, breaks, c => ([], [], breaks, c)
  | fuel + 1, breaks, c =>
    if c.column == indent && !isEnd c.peek then
      let flush := !(c.peek == ' ' || c.peek == '\t')
      let (line, c) := c.span fun ch => !endsLine ch
      let (lineEnd, c) := c.lineBreak
      let (next, c) := blockBreaks indent c.fuel c
      if c.column == indent && !isEnd c.peek then
        let joint :=
          if folded && lineEnd == ['\n'] && flush && !(c.peek == ' ' || c.peek == '\t') then
            if next.isEmpty then [' '] else []
          else lineEnd
        let (cs, last, tail, c) := blockLines folded indent fuel next c
        (breaks ++ line ++ joint ++ cs, last, tail, c)
      else (breaks ++ line, lineEnd, next, c)
    else ([], [], breaks, c)

/-- A block scalar inside a collection indented by `outer`. -/
def scanBlock (folded : Bool) (outer : Int) : Scan Token := fun c => do
  let ((chomping, increment), c) ← scanBlockHeader c.step
  let ((), c) ← scanLineEnd c
  let least := (max (outer + 1) 1).toNat
  let (breaks, indent, c) :=
    match increment with
    | none =>
      let (bs, widest, c) := blockLead c.fuel 0 c
      (bs, max least widest, c)
    | some n =>
      let indent := least + n - 1
      let (bs, c) := blockBreaks indent c.fuel c
      (bs, indent, c)
  let (cs, last, tail, c) := blockLines folded indent c.fuel breaks c
  let ending := match chomping with
    | .strip => []
    | .clip => last
    | .keep => last ++ tail
  pure (.scalar (ofChars (cs ++ ending)) false, c)

/-! ### Plain scalars -/

/-- Whether a plain scalar may go on with a character before another one. -/
def isPlainChar (inFlow : Bool) (ch next : Char) : Bool :=
  !(isGap ch || (ch == ':' && (isGap next || (inFlow && ",[]\x7b\x7d".toList.contains next))) ||
    (inFlow && ",?[]\x7b\x7d".toList.contains ch))

/-- The characters by which a plain scalar goes on. -/
def plainPart (inFlow : Bool) : List Char → List Char
  | [] => []
  | ch :: rest =>
    if isPlainChar inFlow ch (rest.headD '\x00') then ch :: plainPart inFlow rest else []

/-- Empty lines inside a plain scalar; nothing if a line separates documents. -/
def plainBreaks : Nat → Cursor → Option (List Char) × Cursor
  | 0, c => (some [], c)
  | fuel + 1, c =>
    if c.peek == ' ' then plainBreaks fuel c.step
    else if isBreak c.peek then
      let (b, c) := c.lineBreak
      if c.atSeparator then (none, c)
      else
        let (bs, c) := plainBreaks fuel c
        (bs.map (b ++ ·), c)
    else (some [], c)

/-- The space behind a part of a plain scalar, the place behind it, and whether it has a line break.
Without space, or before a line that separates documents, the scalar ends. -/
def plainSpace (c : Cursor) : List Char × Cursor × Bool :=
  let (space, c) := c.span (· == ' ')
  if isBreak c.peek then
    let (b, c) := c.lineBreak
    if c.atSeparator then ([], c, true)
    else
      match plainBreaks c.fuel c with
      | (none, c) => ([], c, true)
      | (some bs, c) =>
        let first := if b != ['\n'] then b else if bs.isEmpty then [' '] else []
        (first ++ bs, c, true)
  else (space, c, false)

/-- The parts of a plain scalar with the space between them. The last result tells whether it ends
behind a line break. -/
def plainParts (inFlow : Bool) (indent : Int) :
    Nat → List Char → Bool → Cursor → List Char × Cursor × Bool
  | 0, _, broken, c => ([], c, broken)
  | fuel + 1, before, broken, c =>
    let part := if c.peek == '#' then [] else plainPart inFlow c.rest
    if part.isEmpty then ([], c, broken)
    else
      let (space, c, broken) := plainSpace (c.skip part.length)
      if space.isEmpty || c.peek == '#' || (!inFlow && (c.column : Int) < indent) then
        (before ++ part, c, broken)
      else
        let (cs, c, broken) := plainParts inFlow indent fuel space broken c
        (before ++ part ++ cs, c, broken)

/-- A plain scalar inside a collection indented by `outer`, and whether it ends behind a line
break. -/
def scanPlain (inFlow : Bool) (outer : Int) (c : Cursor) : Token × Cursor × Bool :=
  let (cs, c, broken) := plainParts inFlow (outer + 1) c.fuel [] false c
  (.scalar (ofChars cs) true, c, broken)

end Stepwise.Yaml
