import LocalSearch.Decimal.Reader
import LocalSearch.Power
import LocalSearch.Text.Blank
import LocalSearch.Toml.Draft
/-!
# Documents of TOML

* `readNumber`: an integer or a floating-point number.
* `readValue`: a value, in arrays and inline tables down to a greatest depth.
* `readStatements`: the statements of a document.
* `read?`: the table of a document.
-/

namespace LocalSearch.Toml

open Text

/-! ## Blanks and comments -/

/-- The blank characters within a line. -/
def isSpace (c : Char) : Bool :=
  c == ' ' || c == '\t'

/-- Skips blanks on a line. -/
def skipBlanks : Reader Unit := do
  let _ ← Reader.takeWhile isSpace

/-- What may stand in a comment. -/
def isCommentChar (c : Char) : Bool :=
  !isControl c || c == '\t'

/-- Skips blanks, line ends and comments; `inComment` says that a comment is going on. -/
def dropVoid (inComment : Bool) : List Char → Option (List Char)
  | [] => some []
  | '\n' :: rest => dropVoid false rest
  | '\r' :: '\n' :: rest => dropVoid false rest
  | c :: rest =>
    if inComment then if isCommentChar c then dropVoid true rest else none
    else if isSpace c then dropVoid false rest
    else if c = '#' then dropVoid true rest
    else some (c :: rest)

/-- Skips blanks, line ends and comments. -/
def skipVoid : Reader Unit :=
  Reader.onRest (dropVoid false)

/-- Skips a comment, if there is one, and the end of the line. -/
def endLine : Reader Unit := do
  skipBlanks
  if ← Reader.sees '#' then
    let _ ← Reader.takeWhile isCommentChar
  match ← get with
  | [] => return
  | '\n' :: rest => set rest
  | '\r' :: '\n' :: rest => set rest
  | _ => failure

/-! ## Numbers -/

/-- Digits with single underscores between them, without these. -/
def ungrouped? (p : Char → Bool) (cs : List Char) : Option (List Char) :=
  if (splitAt '_' cs).all fun part => !part.isEmpty && part.all p then some (cs.filter (· != '_'))
  else none

/-- Takes digits with single underscores between them. -/
def takeDigits (p : Char → Bool) : Reader (List Char) := do
  let cs ← Reader.takeWhile fun c => p c || c == '_'
  ungrouped? p cs

/-- An integer that fits in 64 bits with sign. -/
def inRange? (i : Int) : Option Value :=
  if isLong i then some (.integer i) else none

/-- Reads an integer to another base than ten, after its mark. -/
def readBased (base : Nat) : Reader Value := do
  let digits ← takeDigits fun c => (hexDigit? c).any (· < base)
  inRange? (← digitsValue? base digits)

/-- Reads the fraction of a number, with its point. -/
def readFractionPart : Reader (List Char) := do
  if ← Reader.optional '.' then return '.' :: (← takeDigits Char.isDigit) else return []

/-- Reads the exponent of a number, with its mark. -/
def readExponentPart : Reader (List Char) := do
  match ← get with
  | 'e' :: rest | 'E' :: rest => set rest
  | _ => return []
  let sign ←
    if ← Reader.optional '-' then pure ['-']
    else do
      let _ ← Reader.optional '+'
      pure []
  return 'e' :: sign ++ (← takeDigits Char.isDigit)

/-- Reads a number without its sign. A number too great for its format is an error. -/
def readUnsigned (negative : Bool) : Reader Value := do
  let sign := if negative then "-" else ""
  if ← Reader.sees 'i' then
    Reader.word "inf"
    return .number (if negative then -1 / 0 else 1 / 0)
  if ← Reader.sees 'n' then
    Reader.word "nan"
    return .number (0 / 0)
  let whole ← takeDigits Char.isDigit
  Reader.check (whole.length == 1 || whole.head? != some '0')
  let fraction ← readFractionPart
  let exponent ← readExponentPart
  if fraction.isEmpty && exponent.isEmpty then
    let n ← digitsValue? 10 whole
    inRange? (if negative then -(n : Int) else n)
  else
    let x ← readDecimal? (sign ++ String.ofList (whole ++ fraction ++ exponent))
    Reader.check (x != 1 / 0)
    return .number x

/-- Reads an integer or a floating-point number. -/
def readNumber : Reader Value := do
  match ← get with
  | '0' :: 'x' :: rest => set rest; readBased 16
  | '0' :: 'o' :: rest => set rest; readBased 8
  | '0' :: 'b' :: rest => set rest; readBased 2
  | '+' :: rest => set rest; readUnsigned false
  | '-' :: rest => set rest; readUnsigned true
  | _ => readUnsigned false

/-! ## Keys -/

/-- The greatest number of parts of a key. -/
def keyLimit : Nat := 79

/-- Reads a dotted key of at most so many parts. -/
def readKeyParts : Nat → Reader (List String)
  | 0 => failure
  | n + 1 => do
    skipBlanks
    let part ← readKeyPart
    skipBlanks
    if ← Reader.optional '.' then return part :: (← readKeyParts n) else return [part]

/-- Reads a dotted key. -/
def readKey : Reader (List String) :=
  readKeyParts keyLimit

/-- Reads an entry, with a reader for its value. -/
def readEntry (value : Reader Value) : Reader (List String × Value) := do
  let path ← readKey
  Reader.char '='
  skipBlanks
  return (path, ← value)

/-! ## Values -/

/-- Reads the items of an array up to its end. -/
def readItems (value : Reader Value) : Nat → Reader (List Value)
  | 0 => failure
  | n + 1 => do
    skipVoid
    if ← Reader.optional ']' then return []
    let v ← value
    skipVoid
    if ← Reader.optional ',' then return v :: (← readItems value n)
    Reader.char ']'
    return [v]

/-- Reads the entries of an inline table, of which there is at least one, up to its end. -/
def readInline (value : Reader Value) : Nat → Reader (List (List String × Value))
  | 0 => failure
  | n + 1 => do
    let entry ← readEntry value
    skipBlanks
    if ← Reader.optional ',' then return entry :: (← readInline value n)
    Reader.char '\x7d'
    return [entry]

/-- Reads a scalar. -/
def readScalar : Reader Value := do
  let rest ← get
  match rest with
  | '"' :: _ => return .text (← readQuoted)
  | '\'' :: _ => return .text (← readQuoted)
  | 't' :: _ => Reader.word "true"; return .flag true
  | 'f' :: _ => Reader.word "false"; return .flag false
  | _ => if startsDate rest || startsClock rest then return .moment (← Moment.read) else readNumber

/-- Reads a value with arrays and tables down to a depth. -/
def readNested : Nat → Reader Value
  | 0 => do
    match ← Reader.peek with
    | some '[' | some '\x7b' => failure
    | _ => readScalar
  | depth + 1 => do
    let length := (← get).length
    if ← Reader.optional '[' then return .array (← readItems (readNested depth) length)
    if ← Reader.optional '\x7b' then
      skipBlanks
      if ← Reader.optional '\x7d' then return .table []
      Draft.ofEntries? (← readInline (readNested depth) length)
    else readScalar

/-- The greatest depth of arrays and inline tables. -/
def depthLimit : Nat := 79

/-- Reads a value. -/
def readValue : Reader Value :=
  readNested depthLimit

/-! ## Statements -/

/-- Reads the header of a table. -/
def readHeader : Reader Statement := do
  Reader.char '['
  if ← Reader.optional '[' then
    let path ← readKey
    Reader.word "]]"
    endLine
    return .element path
  else
    let path ← readKey
    Reader.char ']'
    endLine
    return .table path

/-- Reads statements up to the end of the text, each of at least one character. -/
def readStatements : Nat → Reader (List Statement)
  | 0 => failure
  | n + 1 => do
    skipVoid
    match ← Reader.peek with
    | none => return []
    | some '[' => return (← readHeader) :: (← readStatements n)
    | some _ =>
      let (path, v) ← readEntry readValue
      endLine
      return .entry path v :: (← readStatements n)

/-- Reads a document into the entries of its table, in ascending order of their keys. A mark of the
byte order may come first. -/
def read? (s : String) : Option (List (String × Value)) := do
  let cs := match s.toList with
    | '\ufeff' :: rest => rest
    | cs => cs
  let (statements, _) ← readStatements (cs.length + 1) cs
  Draft.ofStatements? statements

end LocalSearch.Toml
