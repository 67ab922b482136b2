import LocalSearch.Datum.Basic
import LocalSearch.Power
import LocalSearch.Text.Reader
/-!
# JSON

Structured data as JSON texts.

* `Datum.ofJson?`: reads a text. A literal without point and exponent that fits in 64 bits, with or
  without sign, is an integer; what other literals stand for is a parameter.
* `Datum.toJson`: writes a text of ASCII characters; how numbers are written is a parameter.
-/

namespace LocalSearch.Datum

open Text

variable {α : Type}

/-! ## Reading -/

/-- Skips blanks and line ends. -/
def skipBlanks : Reader Unit := do
  let _ ← Reader.takeWhile fun c => c == ' ' || c == '\t' || c == '\n' || c == '\r'

/-- Skips blanks and takes a character if it comes next. -/
def optionalMark (c : Char) : Reader Bool := do
  skipBlanks
  Reader.optional c

/-- What a short escape stands for. -/
def escape? : Char → Option Char
  | '"' => some '"'
  | '\\' => some '\\'
  | '/' => some '/'
  | 'b' => some '\x08'
  | 'f' => some '\x0c'
  | 'n' => some '\n'
  | 'r' => some '\r'
  | 't' => some '\t'
  | _ => none

/-- A unit of sixteen bits after another one: a code point, or the first half of one. -/
def joinUnits (high : Option Nat) (unit : Nat) : Option (Char ⊕ Nat) :=
  match high with
  | some h =>
    if 0xdc00 ≤ unit ∧ unit < 0xe000 then
      .inl <$> character? (0x10000 + (h - 0xd800) * 0x400 + (unit - 0xdc00))
    else none
  | none =>
    if 0xd800 ≤ unit ∧ unit < 0xdc00 then some (.inr unit) else .inl <$> character? unit

/-- Reads the characters of a text up to its closing quote. The characters so far come last first,
after them perhaps the first half of a code point. -/
def readChars (before : List Char) (high : Option Nat) : List Char → Option (List Char × List Char)
  | [] => none
  | '"' :: rest => if high.isSome then none else some (before.reverse, rest)
  | '\\' :: 'u' :: a :: b :: c :: d :: rest => do
    match ← joinUnits high (← hexValue? [a, b, c, d]) with
    | .inl x => readChars (x :: before) none rest
    | .inr h => readChars before (some h) rest
  | '\\' :: c :: rest =>
    if high.isSome then none else do readChars ((← escape? c) :: before) none rest
  | c :: rest =>
    if high.isSome || c.toNat < 0x20 then none else readChars (c :: before) none rest

/-- Reads a text after its opening quote. -/
def readText : Reader String
  | s => (readChars [] none s).map fun (cs, rest) => (String.ofList cs, rest)

/-- The value of a literal of digits with an optional minus, unless it is a negative zero or takes
more than 64 bits. -/
def integerLiteral? (s : List Char) : Option Int := do
  let (negative, digits) := match s with
    | '-' :: rest => (true, rest)
    | s => (false, s)
  let n ← digitsValue? 10 digits
  if negative then if 0 < n && isLong (-(n : Int)) then some (-(n : Int)) else none
  else if n < UInt64.size then some (n : Int) else none

/-- Reads a number. -/
def readLiteral (number : String → Option α) : Reader (Datum α) := do
  let s ← Reader.takeWhile fun c =>
    c.isDigit || c == '-' || c == '+' || c == '.' || c == 'e' || c == 'E'
  match integerLiteral? s with
  | some i => return integer i
  | none => return .number (← number (String.ofList s))

/-- Reads the items of a list up to its end. -/
def readList (value : Reader (Datum α)) : Nat → Reader (List (Datum α))
  | 0 => failure
  | n + 1 => do
    let v ← value
    if ← optionalMark ',' then return v :: (← readList value n)
    Reader.char ']'
    return [v]

/-- Reads the fields of a record up to its end. -/
def readFields (value : Reader (Datum α)) : Nat → Reader (List (String × Datum α))
  | 0 => failure
  | n + 1 => do
    skipBlanks
    Reader.char '"'
    let name ← readText
    skipBlanks
    Reader.char ':'
    let v ← value
    if ← optionalMark ',' then return (name, v) :: (← readFields value n)
    Reader.char '\x7d'
    return [(name, v)]

/-- Reads a value with nesting down to a depth, and so many parts at most in each list or record. -/
def readValue (number : String → Option α) : Nat → Reader (Datum α)
  | 0 => failure
  | n + 1 => do
    skipBlanks
    match ← get with
    | '"' :: rest =>
      set rest
      return text (← readText)
    | '[' :: rest =>
      set rest
      if ← optionalMark ']' then return list []
      return list (← readList (readValue number n) (n + 1))
    | '\x7b' :: rest =>
      set rest
      if ← optionalMark '\x7d' then return record []
      return record (← readFields (readValue number n) (n + 1))
    | 't' :: _ =>
      Reader.word "true"
      return flag true
    | 'f' :: _ =>
      Reader.word "false"
      return flag false
    | 'n' :: _ =>
      Reader.word "null"
      return null
    | _ => readLiteral number

/-- Reads a JSON text; `number` reads the literals that are no integers. -/
def ofJson? (number : String → Option α) (s : String) : Option (Datum α) := do
  let cs := s.toList
  let (d, rest) ← readValue number (cs.length + 1) cs
  let (_, rest) ← skipBlanks rest
  if rest.isEmpty then some d else none

/-! ## Writing -/

/-- A unit of sixteen bits as an escape. -/
def unitEscape (n : Nat) : String :=
  let digits := Nat.toDigits 16 n
  "\\u" ++ String.ofList (List.replicate (4 - digits.length) '0' ++ digits)

/-- How a character is written between quotes. -/
def escaped (c : Char) : String :=
  let n := c.toNat
  if c == '"' then "\\\""
  else if c == '\\' then "\\\\"
  else if 0x20 ≤ n ∧ n < 0x7f then c.toString
  else if n < 0x10000 then unitEscape n
  else
    unitEscape (0xd800 + (n - 0x10000) / 0x400) ++ unitEscape (0xdc00 + (n - 0x10000) % 0x400)

/-- A text between quotes. -/
def quotedText (s : String) : String :=
  s.toList.foldl (fun acc c => acc ++ escaped c) "\"" ++ "\""

mutual

/-- Writes a JSON text; `number` writes the numbers that are no integers. -/
def toJson (number : α → String) : Datum α → String
  | null => "null"
  | flag b => if b then "true" else "false"
  | integer i => toString i
  | .number x => number x
  | text s => quotedText s
  | list items => "[" ++ String.intercalate "," (itemsToJson number items) ++ "]"
  | record fields => "\x7b" ++ String.intercalate "," (fieldsToJson number fields) ++ "\x7d"

/-- The texts of the items of a list. -/
def itemsToJson (number : α → String) : List (Datum α) → List String
  | [] => []
  | d :: rest => d.toJson number :: itemsToJson number rest

/-- The texts of the fields of a record. -/
def fieldsToJson (number : α → String) : List (String × Datum α) → List String
  | [] => []
  | (name, d) :: rest => (quotedText name ++ ":" ++ d.toJson number) :: fieldsToJson number rest

end

end LocalSearch.Datum
