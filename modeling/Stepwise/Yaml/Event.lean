import Stepwise.Entries
import Stepwise.Yaml.Token.Stream

/-!
# Events

The structure of the documents that a row of tokens describes: a node begins, ends or is an alias,
in the order in which nodes stand in the text. The reader of events keeps what it expects next and
a stack of what it will expect afterwards; where the text leaves a node out, an empty scalar
stands.
-/

namespace Stepwise.Yaml

/-- A part of the structure of documents. -/
inductive Event where
  | documentStart
  | documentEnd
  | streamEnd
  | alias (name : String)
  /-- a scalar; `open` if its form decides on the tag -/
  | scalar (anchor tag : Option String) (isOpen : Bool) (text : Text)
  | sequenceStart (anchor tag : Option String)
  | sequenceEnd
  | mappingStart (anchor tag : Option String)
  | mappingEnd
  deriving DecidableEq, Repr

/-- What a reader of events expects next. -/
inductive Expected where
  | firstDocument
  | document
  | documentBody
  | documentEnd
  | blockNode
  | blockEntries
  | indentlessEntries
  | blockKey
  | blockValue
  | flowEntries (first : Bool)
  | pairKey
  | pairValue
  | pairEnd
  | flowKey (first : Bool)
  | flowValue
  | flowNoValue
  | nothing
  deriving DecidableEq, Repr

/-- How far the tokens have been read. -/
structure EventReader where
  tokens : List Token
  /-- the fault behind the tokens -/
  fault : Option Fault
  expected : Expected := .firstDocument
  /-- what is expected afterwards -/
  pending : List Expected := []
  /-- the handles of tags in the current document, with what they stand for -/
  handles : Entries String String := []

namespace EventReader

/-- The beginnings of tags that every document knows. -/
def defaultHandles : Entries String String := [("!", "!"), ("!!", "tag:yaml.org,2002:")]

/-- The next token. -/
def peek (r : EventReader) : Except Fault Token :=
  match r.tokens with
  | t :: _ => .ok t
  | [] => .error (r.fault.getD .layout)

/-- The reader behind the next token. -/
def next (r : EventReader) : EventReader := { r with tokens := r.tokens.drop 1 }

/-- The reader with something else expected. -/
def expect (r : EventReader) (e : Expected) : EventReader := { r with expected := e }

/-- The reader with something noted to be expected afterwards. -/
def later (r : EventReader) (e : Expected) : EventReader := { r with pending := e :: r.pending }

/-- The reader that goes back to what was noted last. -/
def back (r : EventReader) : EventReader :=
  { r with expected := r.pending.headD .nothing, pending := r.pending.drop 1 }

/-- An event and the reader behind it. -/
abbrev Step := Except Fault (Event × EventReader)

/-- The event of a scalar that the text leaves out. -/
def emptyScalar : Event := .scalar none none true []

/-- The whole tag that a token of a tag stands for. -/
def wholeTag (r : EventReader) (handle : Option String) (suffix : String) : Except Fault String :=
  match handle with
  | none => .ok suffix
  | some h =>
    match r.handles.get? h with
    | none => .error .layout
    | some start => .ok (start ++ suffix)

/-- An anchor if one stands next. -/
def readAnchor (r : EventReader) : Except Fault (Option String × EventReader) := do
  match ← r.peek with
  | .anchor name => pure (some name, r.next)
  | _ => pure (none, r)

/-- The anchor and the tag of a node, in either order. A tag is looked up when both are read. -/
def readProperties (r : EventReader) :
    Except Fault (Option String × Option String × EventReader) := do
  let (anchor, r) ← r.readAnchor
  let tagToken ← r.peek
  match tagToken with
  | .tag handle suffix =>
    let (anchor, r) ←
      if anchor.isSome then pure (anchor, r.next) else r.next.readAnchor
    pure (anchor, some (← r.wholeTag handle suffix), r)
  | _ => pure (anchor, none, r)

/-- A node. Block collections may stand only in a block, and a sequence without indentation only as
a key or a value of a block mapping. -/
def node (r : EventReader) (block indentless : Bool) : Step := do
  match ← r.peek with
  | .alias name => pure (.alias name, r.next.back)
  | _ =>
    let (anchor, tag, r) ← r.readProperties
    let isOpen := tag.isNone || tag == some "!"
    match ← r.peek with
    | .blockEntry =>
      if indentless then pure (.sequenceStart anchor tag, r.expect .indentlessEntries)
      else missing anchor tag isOpen r
    | .scalar text plain =>
      let isOpen := (plain && tag.isNone) || tag == some "!"
      pure (.scalar anchor tag isOpen text, r.next.back)
    | .flowSequenceStart => pure (.sequenceStart anchor tag, r.next.expect (.flowEntries true))
    | .flowMappingStart => pure (.mappingStart anchor tag, r.next.expect (.flowKey true))
    | .blockSequenceStart =>
      if block then pure (.sequenceStart anchor tag, r.next.expect .blockEntries)
      else missing anchor tag isOpen r
    | .blockMappingStart =>
      if block then pure (.mappingStart anchor tag, r.next.expect .blockKey)
      else missing anchor tag isOpen r
    | _ => missing anchor tag isOpen r
where
  /-- An empty scalar, which must have an anchor or a tag. -/
  missing (anchor tag : Option String) (isOpen : Bool) (r : EventReader) : Step :=
    if anchor.isSome || tag.isSome then .ok (.scalar anchor tag isOpen [], r.back)
    else .error .layout

/-- The directives before a document: at most one version, whose first number is one, and each
handle once. -/
def directives : Nat → Option Unit → Entries String String → EventReader → Except Fault EventReader
  | 0, _, _, _ => .error .layout
  | fuel + 1, version, handles, r => do
    match ← r.peek with
    | .directive (.version major _) =>
      if version.isSome || major != 1 then throw .layout
      directives fuel (some ()) handles r.next
    | .directive (.handle name start) =>
      if handles.hasKey name then throw .layout
      directives fuel version (handles ++ [(name, start)]) r.next
    | .directive (.other _) => directives fuel version handles r.next
    | _ =>
      let handles := defaultHandles.foldl (fun hs h => hs.insertNew h.1 h.2) handles
      pure { r with handles }

/-- The reader behind lines that end documents. -/
def skipDocumentEnds (r : EventReader) : EventReader :=
  { r with tokens := r.tokens.dropWhile (· == .documentEnd) }

/-- A document after its directives, or the end. -/
def explicitDocument (r : EventReader) : Step := do
  let r := r.skipDocumentEnds
  match ← r.peek with
  | .streamEnd => pure (.streamEnd, r.next.expect .nothing)
  | _ =>
    let r ← directives (r.tokens.length + 1) none [] r
    match ← r.peek with
    | .documentStart => pure (.documentStart, (r.next.later .documentEnd).expect .documentBody)
    | _ => throw .layout

/-- A node behind an indicator, or an empty scalar if one of the tokens that show its absence comes
next. Afterwards `e` is expected. -/
def nodeUnless (r : EventReader) (absent : Token → Bool) (e : Expected) (block : Bool)
    (indentless : Bool) : Step := do
  if absent (← r.peek) then pure (emptyScalar, r.expect e)
  else (r.later e).node block indentless

/-- Whether a token shows that no block key or value comes next. -/
def endsBlockPair (t : Token) : Bool := t == .key || t == .value || t == .blockEnd

/-- Whether a token shows that an entry of a flow sequence is over. -/
def endsEntry (t : Token) : Bool := t == .flowEntry || t == .flowSequenceEnd

/-- Whether a token shows that a pair of a flow mapping is over. -/
def endsPair (t : Token) : Bool := t == .flowEntry || t == .flowMappingEnd

/-- The reader behind the comma that must come before every entry but the first. -/
def afterComma (r : EventReader) (first : Bool) : Except Fault EventReader := do
  if first then pure r
  else match ← r.peek with
    | .flowEntry => pure r.next
    | _ => throw .layout

/-- The value behind its indicator; without one an empty scalar. -/
def valueUnless (r : EventReader) (absent : Token → Bool) (e : Expected) (block : Bool) : Step := do
  match ← r.peek with
  | .value => r.next.nodeUnless absent e block block
  | _ => pure (emptyScalar, r.expect e)

/-- The next event. -/
def event (r : EventReader) : Step := do
  match r.expected with
  | .firstDocument =>
    match ← r.peek with
    | .directive _ | .documentStart | .streamEnd => r.explicitDocument
    | _ =>
      let r := { r with handles := defaultHandles }
      pure (.documentStart, (r.later .documentEnd).expect .blockNode)
  | .document => r.explicitDocument
  | .documentBody =>
    match ← r.peek with
    | .directive _ | .documentStart | .documentEnd | .streamEnd => pure (emptyScalar, r.back)
    | _ => r.node true false
  | .documentEnd =>
    match ← r.peek with
    | .documentEnd => pure (.documentEnd, r.next.expect .document)
    | _ => pure (.documentEnd, r.expect .document)
  | .blockNode => r.node true false
  | .blockEntries =>
    match ← r.peek with
    | .blockEntry =>
      r.next.nodeUnless (fun t => t == .blockEntry || t == .blockEnd) .blockEntries true false
    | .blockEnd => pure (.sequenceEnd, r.next.back)
    | _ => throw .layout
  | .indentlessEntries =>
    match ← r.peek with
    | .blockEntry =>
      r.next.nodeUnless (fun t => t == .blockEntry || endsBlockPair t) .indentlessEntries true false
    | _ => pure (.sequenceEnd, r.back)
  | .blockKey =>
    match ← r.peek with
    | .key => r.next.nodeUnless endsBlockPair .blockValue true true
    | .blockEnd => pure (.mappingEnd, r.next.back)
    | _ => throw .layout
  | .blockValue => r.valueUnless endsBlockPair .blockKey true
  | .flowEntries first =>
    match ← r.peek with
    | .flowSequenceEnd => pure (.sequenceEnd, r.next.back)
    | _ =>
      let r ← r.afterComma first
      match ← r.peek with
      | .key => pure (.mappingStart none none, r.expect .pairKey)
      | .flowSequenceEnd => pure (.sequenceEnd, r.next.back)
      | _ => (r.later (.flowEntries false)).node false false
  | .pairKey => r.next.nodeUnless (fun t => t == .value || endsEntry t) .pairValue false false
  | .pairValue => r.valueUnless endsEntry .pairEnd false
  | .pairEnd => do
    let _ ← r.peek
    pure (.mappingEnd, r.expect (.flowEntries false))
  | .flowKey first =>
    match ← r.peek with
    | .flowMappingEnd => pure (.mappingEnd, r.next.back)
    | _ =>
      let r ← r.afterComma first
      match ← r.peek with
      | .key => r.next.nodeUnless (fun t => t == .value || endsPair t) .flowValue false false
      | .flowMappingEnd => pure (.mappingEnd, r.next.back)
      | _ => (r.later .flowNoValue).node false false
  | .flowValue => r.valueUnless endsPair (.flowKey false) false
  | .flowNoValue => do
    let _ ← r.peek
    pure (emptyScalar, r.expect (.flowKey false))
  | .nothing => throw .layout

/-- The events up to the end or to the first fault, at most `fuel` of them. -/
def run : Nat → EventReader → List Event × Option Fault
  | 0, _ => ([], some .layout)
  | fuel + 1, r =>
    if r.expected == .nothing then ([], none)
    else match r.event with
      | .error e => ([], some e)
      | .ok (e, r) =>
        let (es, fault) := run fuel r
        (e :: es, fault)

end EventReader

/-- The events of a text up to the first fault, and the fault if there is one. -/
structure Events where
  events : List Event
  fault : Option Fault

/-- The structure of the documents of a text. -/
def Events.ofTokens (ts : Tokens) : Events :=
  let (events, fault) :=
    EventReader.run (8 * ts.tokens.length + 16) { tokens := ts.tokens, fault := ts.fault }
  ⟨events, fault⟩

end Stepwise.Yaml
