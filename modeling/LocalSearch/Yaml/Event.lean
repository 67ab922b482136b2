import LocalSearch.Yaml.Token
/-!
# Events of YAML

The nodes of a document in the order in which they start, with marks at the ends of collections.

* `Event`: a scalar, an alias, or one end of a collection.
* `Event.ofTokens?`: the events of a text with at most one document.
-/

namespace LocalSearch.Yaml

/-- What a node may carry in front. -/
structure Marks where
  anchor : Option String
  tag : Option String
deriving Repr, DecidableEq

/-- A part of a document. -/
inductive Event
  | alias (name : String)
  | scalar (marks : Marks) (text : String) (plain : Bool)
  | sequenceStart (marks : Marks)
  | sequenceEnd
  | mappingStart (marks : Marks)
  | mappingEnd
deriving Repr, DecidableEq

namespace Event

/-- What is left of the tokens, and the events so far. -/
structure Reading where
  tokens : List Token
  events : Array Event

/-- Reads tokens into events. -/
abbrev Reader := StateT Reading Option

/-- The shorthands for tags that every document knows. -/
def standardShorthands : List (String × String) :=
  [("!", "!"), ("!!", "tag:yaml.org,2002:")]

def peek : Reader (Option Token) :=
  return (← get).tokens.head?

/-- Whether one of some tokens comes next. -/
def sees (tokens : List Token) : Reader Bool := do
  return (← peek).any tokens.contains

def skip : Reader Unit :=
  modify fun r => { r with tokens := r.tokens.tail }

/-- Takes a token if it comes next, and tells whether it did. -/
def optional (t : Token) : Reader Bool := do
  if ← sees [t] then
    skip
    return true
  return false

/-- Takes a token. -/
def expect (t : Token) : Reader Unit := do
  if !(← optional t) then failure

def emit (e : Event) : Reader Unit :=
  modify fun r => { r with events := r.events.push e }

/-- A scalar of which nothing is written. -/
def emitEmpty : Reader Unit :=
  emit (.scalar ⟨none, none⟩ "" true)

/-! ## Anchors and tags -/

/-- Takes an anchor, if there is one. -/
def readAnchor : Reader (Option String) := do
  match ← peek with
  | some (.anchor name) => skip; return some name
  | _ => return none

/-- Takes a tag, if there is one; its handle must be known. -/
def readTag (shorthands : List (String × String)) : Reader (Option String) := do
  match ← peek with
  | some (.tag handle suffix) =>
    skip
    if handle.isEmpty then return some suffix
    let expansion ← shorthands.lookup handle
    return some (expansion ++ suffix)
  | _ => return none

/-- Takes an anchor and a tag, in any order. -/
def readMarks (shorthands : List (String × String)) : Reader Marks := do
  let tag ← readTag shorthands
  let anchor ← readAnchor
  let tag ← if tag.isSome then pure tag else readTag shorthands
  return ⟨anchor, tag⟩

/-! ## Nodes -/

/-- The items of a sequence with dashes, with a reader for the items. A sequence within a mapping
may stand at the column of its keys, and then ends where the dashes end. -/
def readBlockItems (node : Reader Unit) (indented : Bool) : Nat → Reader Unit
  | 0 => failure
  | n + 1 => do
    if ← optional .blockEntry then
      let ends : List Token :=
        if indented then [.blockEntry, .blockEnd] else [.blockEntry, .key, .value, .blockEnd]
      if ← sees ends then emitEmpty else node
      readBlockItems node indented n
    else
      if indented then expect .blockEnd
      emit .sequenceEnd

/-- A key or a value of a mapping without brackets; it may be missing. -/
def readBlockPart (node : Reader Unit) : Reader Unit := do
  if ← sees [.key, .value, .blockEnd] then emitEmpty else node

/-- The entries of a mapping without brackets. -/
def readBlockEntries (node : Reader Unit) : Nat → Reader Unit
  | 0 => failure
  | n + 1 => do
    if ← optional .blockEnd then emit .mappingEnd
    else
      expect .key
      readBlockPart node
      if ← optional .value then readBlockPart node else emitEmpty
      readBlockEntries node n

/-- A part of an entry within brackets, or nothing before one of some tokens. -/
def readFlowPart (node : Reader Unit) (ends : List Token) : Reader Unit := do
  if ← sees ends then emitEmpty else node

/-- A value within brackets after its colon; both may be missing. -/
def readFlowValue (node : Reader Unit) (close : Token) : Reader Unit := do
  if ← optional .value then readFlowPart node [.flowEntry, close] else emitEmpty

/-- A mapping of one entry within a sequence in brackets, after the mark of its key. Without a key
the token in its place is lost. -/
def readPair (node : Reader Unit) : Reader Unit := do
  emit (.mappingStart ⟨none, none⟩)
  if ← sees [.value, .flowEntry, .flowSequenceEnd] then
    skip
    emitEmpty
  else node
  readFlowValue node .flowSequenceEnd
  emit .mappingEnd

/-- The items of a sequence in brackets. -/
def readFlowItems (node : Reader Unit) (first : Bool) : Nat → Reader Unit
  | 0 => failure
  | n + 1 => do
    if ← optional .flowSequenceEnd then emit .sequenceEnd
    else
      if !first then expect .flowEntry
      if ← optional .flowSequenceEnd then emit .sequenceEnd
      else
        if ← optional .key then readPair node else node
        readFlowItems node false n

/-- The entries of a mapping in brackets. -/
def readFlowEntries (node : Reader Unit) (first : Bool) : Nat → Reader Unit
  | 0 => failure
  | n + 1 => do
    if ← optional .flowMappingEnd then emit .mappingEnd
    else
      if !first then expect .flowEntry
      if ← optional .flowMappingEnd then emit .mappingEnd
      else
        if ← optional .key then
          readFlowPart node [.value, .flowEntry, .flowMappingEnd]
          readFlowValue node .flowMappingEnd
        else
          node
          emitEmpty
        readFlowEntries node false n

/-- A node. Outside brackets it may be a collection without brackets, and as a part of a mapping
also a sequence at the column of the keys. Every level takes a token at least. -/
def readNode (shorthands : List (String × String)) : Nat → (block part : Bool) → Reader Unit
  | 0, _, _ => failure
  | n + 1, block, part => do
    if let some (.alias name) ← peek then
      skip
      emit (.alias name)
      return
    let marks ← readMarks shorthands
    let inBlock := readNode shorthands n true false
    let inMapping := readNode shorthands n true true
    let inFlow := readNode shorthands n false false
    match ← peek with
    | some (.scalar text plain) =>
      skip
      let tag := marks.tag.filter (· != "!")
      emit (.scalar { marks with tag } text plain)
    | some .flowSequenceStart =>
      skip
      emit (.sequenceStart marks)
      readFlowItems inFlow true n
    | some .flowMappingStart =>
      skip
      emit (.mappingStart marks)
      readFlowEntries inFlow true n
    | some t =>
      if part && t == .blockEntry then
        emit (.sequenceStart marks)
        readBlockItems inBlock false n
      else if block && t == .blockSequence then
        skip
        emit (.sequenceStart marks)
        readBlockItems inBlock true n
      else if block && t == .blockMapping then
        skip
        emit (.mappingStart marks)
        readBlockEntries inMapping n
      else if marks.anchor.isSome || marks.tag.isSome then
        emit (.scalar marks "" true)
      else failure
    | none =>
      if marks.anchor.isSome || marks.tag.isSome then
        emit (.scalar marks "" true)
      else failure

/-! ## Documents -/

/-- The directives before a document: at most one version, which must be 1.1 or 1.2, and at most one
shorthand for a handle. Answers the shorthands. -/
def readDirectives : Nat → (versioned : Bool) → List (String × String) →
    Reader (List (String × String))
  | 0, _, _ => failure
  | n + 1, versioned, shorthands => do
    match ← peek with
    | some (.version major minor) =>
      if versioned || major != 1 || !(minor == 1 || minor == 2) then failure
      skip
      readDirectives n true shorthands
    | some (.shorthand handle expansion) =>
      if (shorthands.lookup handle).isSome then failure
      skip
      readDirectives n versioned (shorthands ++ [(handle, expansion)])
    | _ => return shorthands

/-- Takes the marks that end a document. -/
def skipEnds : Reader Unit :=
  modify fun r => { r with tokens := r.tokens.dropWhile (· == .documentEnd) }

/-- Takes all tokens: none, or those of one document, whose start and end may be marked. -/
def readDocument : Reader Unit := do
  let n := (← get).tokens.length + 1
  match ← peek with
  | none => return
  | some (.version ..) | some (.shorthand ..) | some .documentStart =>
    let shorthands ← readDirectives n false []
    expect .documentStart
    match ← peek with
    | none | some (.version ..) | some (.shorthand ..) | some .documentStart | some .documentEnd =>
      emitEmpty
    | some _ => readNode (shorthands ++ standardShorthands) n true false
  | some _ => readNode standardShorthands n true false
  skipEnds
  if (← peek).isSome then failure

/-- The events of a text with at most one document. -/
def ofTokens? (tokens : Array Token) : Option (Array Event) :=
  (readDocument.run ⟨tokens.toList, #[]⟩).map fun (_, r) => r.events

end Event

end LocalSearch.Yaml
