import LocalSearch.Decimal.Layout
import LocalSearch.Decimal.Reader
import LocalSearch.Power
import LocalSearch.Text.Reader
import LocalSearch.Yaml.Event
import LocalSearch.Yaml.Lexer
/-!
# Nodes of YAML

* `Node`: a scalar, a sequence, a mapping, or a node with a tag of its own.
* `Node.ofPlain?`, `Node.ofScalar?`: what a scalar stands for.
* `Node.same`: when two keys of a mapping are the same.
* `Node.ofEvents?`: the node of a document, with aliases replaced by what they stand for.
* `read?`: the node of a text.
-/

namespace LocalSearch.Yaml

open Text

/-- A node. The entries of a mapping have different keys. -/
inductive Node
  | null
  | flag (b : Bool)
  | integer (i : Int)
  | number (x : Float)
  | text (s : String)
  | sequence (items : List Node)
  | mapping (entries : List (Node × Node))
  | tagged (tag : String) (node : Node)

namespace Node

/-! ## Scalars -/

/-- Whether a text is a name of null. -/
def isNull (s : String) : Bool :=
  ["null", "Null", "NULL", "~"].contains s

/-- The truth value that a text names. -/
def flag? (s : String) : Option Bool :=
  if ["true", "True", "TRUE"].contains s then some true
  else if ["false", "False", "FALSE"].contains s then some false
  else none

/-- Whether a text is a number with needless zeros in front, which makes it a text. -/
def isPadded (s : List Char) : Bool :=
  match (splitSign s).2 with
  | '0' :: rest => !rest.isEmpty && rest.all Char.isDigit
  | _ => false

/-- The value of a whole number without sign, decimal or with the mark of another base. -/
def unsigned? : List Char → Option Nat
  | '0' :: 'x' :: rest => digitsValue? 16 rest
  | '0' :: 'o' :: rest => digitsValue? 8 rest
  | '0' :: 'b' :: rest => digitsValue? 2 rest
  | s => digitsValue? 10 s

/-- The value of a whole number. -/
def whole? (s : List Char) : Option Int :=
  if isPadded s then none
  else
    let (negative, rest) := splitSign s
    (unsigned? rest).map fun n => if negative then -(n : Int) else n

/-- The value of a finite number or of a name of infinity or of not-a-number. -/
def number? (s : String) : Option Float :=
  let positive := match s.toList with
    | '+' :: rest => String.ofList rest
    | _ => s
  if [".inf", ".Inf", ".INF"].contains positive then some (1 / 0)
  else if ["-.inf", "-.Inf", "-.INF"].contains s then some (-1 / 0)
  else if [".nan", ".NaN", ".NAN"].contains s then some (0 / 0)
  else if positive != s && (positive.startsWith "+" || positive.startsWith "-") then none
  else (readDecimal? positive).filter Float.isFinite

/-- A whole number as a node. Numbers of more than 64 bits with up to 128 are an error (`none`), and
the still greater ones no whole numbers for this format (`some none`). -/
def ofWhole? (i : Int) : Option (Option Node) :=
  if isLong i || (0 ≤ i && i < UInt64.size) then some (some (integer i))
  else if -(twoPow 127 : Int) ≤ i ∧ i < twoPow 128 then none
  else some none

/-- What a text that looks like a whole number stands for; `some none` if it looks like none. -/
def wholeNode? (s : String) : Option (Option Node) :=
  match whole? s.toList with
  | none => some none
  | some i => ofWhole? i

/-- What a scalar without quotes and tag stands for. -/
def ofPlain? (s : String) : Option Node :=
  if s.isEmpty || isNull s then some null
  else
    match flag? s with
    | some b => some (flag b)
    | none => do
      match ← wholeNode? s with
      | some node => return node
      | none =>
        if isPadded s.toList then return text s
        match number? s with
        | some x => return number x
        | none => return text s

/-- What a scalar with a tag of the core schema stands for; other tags say that it is a text. -/
def ofCoreTag? (tag s : String) : Option Node :=
  match tag with
  | "tag:yaml.org,2002:null" => if isNull s then some null else none
  | "tag:yaml.org,2002:bool" => flag <$> flag? s
  | "tag:yaml.org,2002:int" => (wholeNode? s).join
  | "tag:yaml.org,2002:float" => number <$> number? s
  | _ => some (text s)

/-- The name of a tag of one's own: what follows its exclamation mark. -/
def ownTag? (marks : Marks) : Option String :=
  match marks.tag with
  | some tag => if tag.startsWith "!" then some (tag.drop 1).toString else none
  | none => none

/-- What a scalar stands for, apart from a tag of its own. -/
def ofScalar? (marks : Marks) (s : String) (plain : Bool) : Option Node :=
  match marks.tag with
  | some tag =>
    if tag.startsWith "!" then if plain then ofPlain? s else some (text s) else ofCoreTag? tag s
  | none => if plain then ofPlain? s else some (text s)

/-- A node with its tag, if it has one of its own. The tag must not be empty, and one more
exclamation mark does not count. -/
def withTag (marks : Marks) (node : Node) : Option Node :=
  match ownTag? marks with
  | none => some node
  | some "" => none
  | some tag =>
    some (tagged (if tag.startsWith "!" && tag != "!" then (tag.drop 1).toString else tag) node)

/-! ## Keys -/

mutual

/-- Whether two nodes are the same. A number differs from a whole one, not-a-number is the same as
itself, and the order of mappings does not count. -/
def same : Node → Node → Bool
  | null, null => true
  | flag a, flag b => a == b
  | integer a, integer b => a == b
  | number a, number b => a == b || (a.isNaN && b.isNaN)
  | text a, text b => a == b
  | sequence as, sequence bs => sameItems as bs
  | mapping as, mapping bs => as.length == bs.length && sameEntries as bs
  | tagged s a, tagged t b => s == t && same a b
  | _, _ => false

/-- Whether two lists of nodes are the same, one by one. -/
def sameItems : List Node → List Node → Bool
  | [], [] => true
  | a :: as, b :: bs => same a b && sameItems as bs
  | _, _ => false

/-- Whether every entry of the first list is one of the second. -/
def sameEntries : List (Node × Node) → List (Node × Node) → Bool
  | [], _ => true
  | (k, v) :: rest, bs => bs.any (fun (l, w) => same k l && same v w) && sameEntries rest bs

end

/-! ## Anchors -/

/-- The anchors of a document. An anchor has a number, that of the names before it; a name that is
used again gets a new one, which need not be new. -/
structure Anchors where
  /-- The number of each name. -/
  numbers : List (String × Nat)
  /-- The place of each number among the events, the last one first. -/
  places : List (Nat × Nat)
  /-- The number that each alias stands for, by its place among the events. -/
  aliases : List (Nat × Nat)

namespace Anchors

/-- Notes an anchor at a place. -/
def add (a : Anchors) (place : Nat) : Option String → Anchors
  | none => a
  | some name =>
    let number := a.numbers.length
    { a with
      numbers := (name, number) :: a.numbers.filter (·.1 != name)
      places := (number, place) :: a.places }

/-- Notes the anchor or the alias of an event. An alias must come after its anchor. -/
def addEvent (a : Anchors) (place : Nat) : Event → Option Anchors
  | .alias name => do
    let number ← a.numbers.lookup name
    return { a with aliases := (place, number) :: a.aliases }
  | .scalar marks _ _ => some (a.add place marks.anchor)
  | .sequenceStart marks => some (a.add place marks.anchor)
  | .mappingStart marks => some (a.add place marks.anchor)
  | .sequenceEnd => some a
  | .mappingEnd => some a

/-- The anchors of a document. -/
def ofEvents? (events : Array Event) : Option Anchors :=
  events.toList.zipIdx.foldlM (fun a (e, place) => a.addEvent place e) ⟨[], [], []⟩

/-- The place of the node that an alias stands for. -/
def target? (a : Anchors) (place : Nat) : Option Nat := do
  a.places.lookup (← a.aliases.lookup place)

end Anchors

/-! ## From events to nodes -/

/-- Reads nodes; the state is the number of aliases still to be followed. -/
abbrev Reader := StateT Nat Option

/-- The items of a sequence from a place on, with a reader for nodes; also answers the place after
the end. -/
def readItems (events : Array Event) (node : Nat → Reader (Node × Nat)) :
    Nat → Nat → Reader (List Node × Nat)
  | 0, _ => failure
  | n + 1, place => do
    if events[place]? == some .sequenceEnd then return ([], place + 1)
    let (item, place) ← node place
    let (items, place) ← readItems events node n place
    return (item :: items, place)

/-- The entries of a mapping from a place on, after those with keys read before. -/
def readEntries (events : Array Event) (node : Nat → Reader (Node × Nat)) :
    Nat → List Node → Nat → Reader (List (Node × Node) × Nat)
  | 0, _, _ => failure
  | n + 1, keys, place => do
    if events[place]? == some .mappingEnd then return ([], place + 1)
    let (key, place) ← node place
    if keys.any key.same then failure
    let (value, place) ← node place
    let (entries, place) ← readEntries events node n (key :: keys) place
    return ((key, value) :: entries, place)

/-- The node at a place, with collections down to a depth; also answers the place after it. -/
def readNode (events : Array Event) (anchors : Anchors) : Nat → Nat → Reader (Node × Nat)
  | depth, place => do
    let (start, after?) ←
      if let some (.alias _) := events[place]? then
        let left ← get
        if left = 0 then failure
        set (left - 1)
        let target ← anchors.target? place
        pure (target, some (place + 1))
      else pure (place, none)
    let (node, after) ← match depth, events[start]? with
      | _, some (.scalar marks s plain) => do
        let node ← ofScalar? marks s plain
        pure (← withTag marks node, start + 1)
      | depth + 1, some (.sequenceStart marks) => do
        let (items, after) ← readItems events (readNode events anchors depth) events.size (start + 1)
        pure (← withTag marks (sequence items), after)
      | depth + 1, some (.mappingStart marks) => do
        let (entries, after) ←
          readEntries events (readNode events anchors depth) events.size [] (start + 1)
        pure (← withTag marks (mapping entries), after)
      | _, _ => failure
    return (node, after?.getD after)

/-- The greatest depth of collections. -/
def depthLimit : Nat := 128

/-- The node of a document, null if there is none. Aliases are followed at most a hundred times as
often as there are events. -/
def ofEvents? (events : Array Event) : Option Node := do
  let anchors ← Anchors.ofEvents? events
  if events.isEmpty then return null
  let ((node, _), _) ← (readNode events anchors depthLimit 0).run (100 * events.size)
  return node

end Node

/-- The node of a text, null for a text without a document. -/
def read? (s : String) : Option Node := do
  Node.ofEvents? (← Event.ofTokens? (← tokens? s))

end LocalSearch.Yaml
