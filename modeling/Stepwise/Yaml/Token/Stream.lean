import Stepwise.Yaml.Token.Name
import Stepwise.Yaml.Token.Scalar

/-!
# The tokens of a text

Splits a whole text into tokens. A node that a colon follows on the same line is a key, which is
known only when the colon is read; the tokens of a key and of the mapping that it opens are then
put in before it. A token that may still turn out to be a key is held back, with those behind it,
so that a fault found meanwhile comes before them.
-/

namespace Stepwise.Yaml

/-- A token that may turn out to be a key. -/
structure Candidate where
  level : Nat
  /-- how many tokens come before it -/
  number : Nat
  /-- whether only a key may stand here -/
  required : Bool
  index : Nat
  line : Nat
  column : Nat
  deriving DecidableEq, Repr

/-- How far a text has been split. -/
structure Lexer where
  cursor : Cursor
  /-- how many flow collections are open -/
  level : Nat := 0
  /-- the column of the innermost block collection -/
  indent : Int := -1
  /-- the columns of the block collections around it -/
  indents : List Int := []
  /-- whether a key may begin here -/
  keyAllowed : Bool := true
  /-- at most one candidate for each level -/
  candidates : List Candidate := []
  tokens : Array Token := #[]
  /-- how many tokens can no longer be preceded by others -/
  settled : Nat := 0
  isDone : Bool := false

namespace Lexer

/-- The next state of a lexer. -/
abbrev Next := Except Fault Lexer

/-- The character at the cursor. -/
def peek (s : Lexer) (k : Nat := 0) : Char := s.cursor.peek k

/-- Adds a token. -/
def push (s : Lexer) (t : Token) : Lexer := { s with tokens := s.tokens.push t }

/-- Drops the candidates that are too far back; one that had to be a key is a fault. -/
def dropStale (s : Lexer) : Next :=
  let stale (k : Candidate) : Bool :=
    k.line != s.cursor.line || decide (1024 < s.cursor.index - k.index)
  if s.candidates.any fun k => stale k && k.required then .error .token
  else .ok { s with candidates := s.candidates.filter fun k => !stale k }

/-- Drops the candidate of the current level; one that had to be a key is a fault. -/
def dropCandidate (s : Lexer) : Next :=
  if s.candidates.any fun k => k.level == s.level && k.required then .error .token
  else .ok { s with candidates := s.candidates.filter fun k => k.level != s.level }

/-- Notes that the next token may turn out to be a key. -/
def noteCandidate (s : Lexer) : Next :=
  if s.keyAllowed then do
    let s ← s.dropCandidate
    let c := s.cursor
    let k : Candidate := {
      level := s.level
      number := s.tokens.size
      required := s.level == 0 && s.indent == c.column
      index := c.index
      line := c.line
      column := c.column }
    pure { s with candidates := s.candidates ++ [k] }
  else .ok s

/-- Closes the block collections that are indented further than a column. -/
def closeBlocks (s : Lexer) (column : Int) : Lexer :=
  if s.level != 0 then s
  else
    let closed := (s.indent :: s.indents).takeWhile (column < ·)
    match (s.indent :: s.indents).drop closed.length with
    | indent :: indents =>
      { s with
        indent
        indents
        tokens := s.tokens ++ Array.replicate closed.length Token.blockEnd }
    | [] => s

/-- Opens a block collection at a column unless one is open there: its first token goes to a place
among the tokens. -/
def openBlock (s : Lexer) (column : Nat) (place : Nat) (t : Token) : Lexer :=
  if s.indent < column then
    { s with
      indents := s.indent :: s.indents
      indent := column
      tokens := s.tokens.insertIdxIfInBounds place t }
  else s

/-- Opens a block collection at the cursor. -/
def openBlockHere (s : Lexer) (t : Token) : Lexer := s.openBlock s.cursor.column s.tokens.size t

/-- Goes over spaces, comments and line breaks to the next token. -/
def toNextToken : Nat → Lexer → Lexer
  | 0, s => s
  | fuel + 1, s =>
    let c := s.cursor.skipSpaces.skipComment
    if isBreak c.peek then
      toNextToken fuel
        { s with cursor := c.lineBreak.2, keyAllowed := s.keyAllowed || s.level == 0 }
    else { s with cursor := c }

/-- Adds a token of `length` characters. -/
def take (s : Lexer) (t : Token) (length : Nat) : Lexer :=
  { s with cursor := s.cursor.skip length }.push t

/-! ### One function for each kind of token -/

/-- The end of the text, which closes every block. -/
def streamEnd (s : Lexer) : Next := do
  let s ← (s.closeBlocks (-1)).dropCandidate
  pure { s.push .streamEnd with
    keyAllowed := false
    candidates := []
    isDone := true }

/-- A directive. -/
def directive (s : Lexer) : Next := do
  let s ← (s.closeBlocks (-1)).dropCandidate
  let (t, cursor) ← scanDirective s.cursor
  pure (Lexer.push { s with cursor, keyAllowed := false } t)

/-- The line that starts or ends a document. -/
def documentLine (s : Lexer) (t : Token) : Next := do
  let s ← (s.closeBlocks (-1)).dropCandidate
  pure (Lexer.take { s with keyAllowed := false } t 3)

/-- The opening bracket of a flow collection. -/
def flowStart (s : Lexer) (t : Token) : Next := do
  let s ← s.noteCandidate
  pure (Lexer.take { s with level := s.level + 1, keyAllowed := true } t 1)

/-- The closing bracket of a flow collection. -/
def flowEnd (s : Lexer) (t : Token) : Next := do
  let s ← s.dropCandidate
  pure (Lexer.take { s with level := s.level - 1, keyAllowed := false } t 1)

/-- The comma between the entries of a flow collection. -/
def flowEntry (s : Lexer) : Next := do
  let s ← { s with keyAllowed := true }.dropCandidate
  pure (s.take .flowEntry 1)

/-- The dash before an entry of a block sequence. -/
def blockEntry (s : Lexer) : Next := do
  if s.level == 0 && !s.keyAllowed then throw .token
  let s := if s.level == 0 then s.openBlockHere .blockSequenceStart else s
  let s ← { s with keyAllowed := true }.dropCandidate
  pure (s.take .blockEntry 1)

/-- The question mark before a key. -/
def keyMark (s : Lexer) : Next := do
  if s.level == 0 && !s.keyAllowed then throw .token
  let s := if s.level == 0 then s.openBlockHere .blockMappingStart else s
  let s ← { s with keyAllowed := s.level == 0 }.dropCandidate
  pure (s.take .key 1)

/-- The colon before a value. If a candidate is open, it is the key. -/
def valueMark (s : Lexer) : Next :=
  match s.candidates.find? fun k => k.level == s.level with
  | some k =>
    let s := { s with
      candidates := s.candidates.filter fun k => k.level != s.level
      tokens := s.tokens.insertIdxIfInBounds k.number .key }
    let s := if s.level == 0 then s.openBlock k.column k.number .blockMappingStart else s
    .ok (Lexer.take { s with keyAllowed := false } .value 1)
  | none => do
    if s.level == 0 && !s.keyAllowed then throw .token
    let s := if s.level == 0 then s.openBlockHere .blockMappingStart else s
    let s ← { s with keyAllowed := s.level == 0 }.dropCandidate
    pure (s.take .value 1)

/-- A token that may be a key and behind which none may begin. -/
def node (s : Lexer) (scan : Scan Token) : Next := do
  let s ← s.noteCandidate
  let (t, cursor) ← scan s.cursor
  pure (Lexer.push { s with cursor, keyAllowed := false } t)

/-- A block scalar. -/
def block (s : Lexer) (folded : Bool) : Next := do
  let s ← { s with keyAllowed := true }.dropCandidate
  let (t, cursor) ← scanBlock folded s.indent s.cursor
  pure (Lexer.push { s with cursor } t)

/-- A plain scalar. -/
def plain (s : Lexer) : Next := do
  let s ← s.noteCandidate
  let (t, cursor, keyAllowed) := scanPlain (s.level != 0) s.indent s.cursor
  pure (Lexer.push { s with cursor, keyAllowed } t)

/-- An anchor or an alias. -/
def scanNamed (t : String → Token) : Scan Token := fun c => do
  let (name, c) ← scanAnchorName c
  pure (t name, c)

/-- Whether a plain scalar may begin at the cursor. -/
def atPlain (s : Lexer) : Bool :=
  let ch := s.peek
  !(isGap ch || "-?:,[]\x7b\x7d#&*!|>'\"%@`".toList.contains ch) ||
    (!isGap (s.peek 1) && (ch == '-' || (s.level == 0 && (ch == '?' || ch == ':'))))

/-- The next token, by the character that it begins with. -/
def dispatch (s : Lexer) : Next :=
  let ch := s.peek
  let inFlow := s.level != 0
  let atStart := s.cursor.column == 0
  if isEnd ch then s.streamEnd
  else if ch == '%' && atStart then s.directive
  else if atStart && s.cursor.atMarks '-' then s.documentLine .documentStart
  else if atStart && s.cursor.atMarks '.' then s.documentLine .documentEnd
  else if ch == '[' then s.flowStart .flowSequenceStart
  else if ch == '\x7b' then s.flowStart .flowMappingStart
  else if ch == ']' then s.flowEnd .flowSequenceEnd
  else if ch == '\x7d' then s.flowEnd .flowMappingEnd
  else if ch == ',' then s.flowEntry
  else if ch == '-' && isGap (s.peek 1) then s.blockEntry
  else if ch == '?' && (inFlow || isGap (s.peek 1)) then s.keyMark
  else if ch == ':' && (inFlow || isGap (s.peek 1)) then s.valueMark
  else if ch == '*' then s.node (scanNamed .alias)
  else if ch == '&' then s.node (scanNamed .anchor)
  else if ch == '!' then s.node scanTag
  else if ch == '|' && !inFlow then s.block false
  else if ch == '>' && !inFlow then s.block true
  else if ch == '\'' then s.node (scanQuoted false)
  else if ch == '"' then s.node (scanQuoted true)
  else if s.atPlain then s.plain
  else .error .token

/-- Notes which tokens are settled: those before the first candidate, or all at the end. -/
def settle (s : Lexer) : Lexer :=
  { s with settled := s.candidates.foldl (fun n k => min n k.number) s.tokens.size }

/-- Reads on by one token. -/
def advance (s : Lexer) : Next := do
  let s ← (toNextToken s.cursor.fuel s).dropStale
  let s ← (s.closeBlocks s.cursor.column).dispatch
  if s.isDone then pure s.settle else do pure (← s.dropStale).settle

/-- Reads up to the end or to the first fault, at most `fuel` tokens. -/
def run : Nat → Lexer → Lexer × Option Fault
  | 0, s => (s, some .token)
  | fuel + 1, s =>
    if s.isDone then (s, none)
    else match s.advance with
      | .ok s => run fuel s
      | .error e => (s, some e)

end Lexer

/-- The tokens of a text up to the first fault, and the fault if there is one. -/
structure Tokens where
  tokens : List Token
  fault : Option Fault

/-- Whether a text may hold a character. -/
def isAllowed (c : Char) : Bool :=
  let n := c.toNat
  n == 0x09 || n == 0x0a || n == 0x0d || (0x20 ≤ n && n ≤ 0x7e) || n == 0x85 ||
    (0xa0 ≤ n && n ≤ 0xfffd) || 0x10000 ≤ n

/-- Splits a text into tokens. A byte order mark at its start is skipped. -/
def Tokens.ofText (s : String) : Tokens :=
  let cs := s.toList
  if !cs.all isAllowed then ⟨[], some .character⟩
  else
    let start := Cursor.start cs
    let cursor := if start.peek == '\ufeff' then start.step else start
    let (s, fault) := Lexer.run (2 * cs.length + 4) { cursor }
    ⟨s.tokens.toList.take s.settled, fault⟩

end Stepwise.Yaml
