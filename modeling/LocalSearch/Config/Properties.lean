import LocalSearch.Decimal.Reader
import LocalSearch.Dictionary
import LocalSearch.Failure
import LocalSearch.Scalar
import LocalSearch.Text.Blank
/-!
# Properties

A property set is a dictionary whose keys are dotted names such as `GreatDeluge.CoolRate`.

* `Properties.ofText`: reads lines `key=value` or `key: value`.
* `Properties.text?`, `Properties.number`, `Properties.integer`, …: typed views of one value. A
  missing key has the default, a value that cannot be read is an error.
-/

namespace LocalSearch

/-- A set of properties. -/
abbrev Properties := Dictionary

namespace Properties

/-! ## Lines of text -/

/-- What a line of a property text says. -/
inductive Line
  /-- A blank line, or a comment. -/
  | empty
  | entry (key value : String)
  /-- A line without a separator. -/
  | garbage (line : String)
deriving Repr, DecidableEq

/-- The characters that separate a key from its value. -/
def isSeparator (c : Char) : Bool :=
  c == '=' || c == ':'

/-- Reads a line: a comment starts with `#` or `!`, and the first `=` or `:` ends the key. -/
def readLine (line : List Char) : Line :=
  let line := Text.trimList line
  match line with
  | [] => .empty
  | first :: _ =>
    if first = '#' ∨ first = '!' then .empty
    else
      match line.dropWhile (!isSeparator ·) with
      | [] => .garbage (String.ofList line)
      | _ :: value =>
        .entry (String.ofList (Text.trimList (line.takeWhile (!isSeparator ·))))
          (String.ofList (Text.trimList value))

/-- The lines of a text in order, written into a set; the first line without a separator is an
error that tells its number. -/
def addLines (props : Properties) (number : Nat) : List (List Char) → Except ConfigError Properties
  | [] => .ok props
  | line :: rest =>
    match readLine line with
    | .empty => addLines props (number + 1) rest
    | .entry key value => addLines (props.insert key value) (number + 1) rest
    | .garbage line =>
      .error (.invalid ("line " ++ toString number ++ ": expected key=value, got " ++
        Text.quoted line))

/-- Reads a property text. -/
def ofText (s : String) : Except ConfigError Properties :=
  addLines .empty 1 (Text.linesOf s.toList)

/-! ## Typed values -/

/-- The value of a key that must be there. -/
def require (props : Properties) (key : String) : Except ConfigError String :=
  match props.get? key with
  | some value => .ok value
  | none => .error (.missing key)

/-- The value of a key as a text. -/
def text (props : Properties) (key default : String) : String :=
  (props.get? key).getD default

/-- The value of a key as read by `read?`, `none` if the key is missing. -/
def read (props : Properties) {β : Type} (read? : String → Option β) (expected key : String) :
    Except ConfigError (Option β) :=
  match props.get? key with
  | none => .ok none
  | some value =>
    match read? value with
    | some x => .ok (some x)
    | none => .error (.malformed key value expected)

/-- A truth value: one of eight words in any case, without blanks around it. -/
def readFlag? (s : String) : Option Bool :=
  let word := String.ofList (s.toList.map Char.toLower)
  if ["true", "yes", "on", "1"].contains word then some true
  else if ["false", "no", "off", "0"].contains word then some false
  else none

/-- The value of a key as a truth value. -/
def flag (props : Properties) (key : String) (default : Bool) : Except ConfigError Bool := do
  return (← props.read readFlag? "a boolean" key).getD default

/-- The value of a key as a number, `none` if the key is missing. -/
def number? {α : Type} [Scalar α] (props : Properties) (key : String) :
    Except ConfigError (Option α) :=
  props.read (fun s => Scalar.parse? (Text.trim s)) "a number" key

/-- The value of a key as a number. -/
def number {α : Type} [Scalar α] (props : Properties) (key : String) (default : α) :
    Except ConfigError α := do
  return (← props.number? key).getD default

/-- The value of a key as an integer of 64 bits with sign. -/
def integer (props : Properties) (key : String) (default : Int) : Except ConfigError Int := do
  return (← props.read (fun s => readLong? (Text.trim s)) "an integer" key).getD default

/-- The value of a key as a natural number below `2 ^ 64`, `none` if the key is missing. -/
def count? (props : Properties) (key : String) : Except ConfigError (Option Nat) :=
  props.read (fun s => readWord? (Text.trim s)) "a non-negative integer" key

/-- The value of a key as a natural number below `2 ^ 64`. -/
def count (props : Properties) (key : String) (default : Nat) : Except ConfigError Nat := do
  return (← props.count? key).getD default

end Properties

end LocalSearch
