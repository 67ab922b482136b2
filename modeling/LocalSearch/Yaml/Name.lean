import LocalSearch.Power
import LocalSearch.Text.Reader
import LocalSearch.Yaml.Cursor
import LocalSearch.Yaml.Token
/-!
# Names in YAML

* `readName`: the name of an anchor or an alias.
* `readTag`: a tag.
* `readDirective`: a line that declares the version or a shorthand for tags.
-/

namespace LocalSearch.Yaml

open Text

/-- Reads the name after the mark of an anchor or an alias. It ends at a gap or before one of a few
marks. -/
def readName (c : Cursor) : Option (String × Cursor) :=
  let (name, c) := c.takeWhile isWordChar
  if name.isEmpty then none
  else if c.gapAt 0 || c.seesOne ['?', ':', ',', ']', '\x7d', '%', '@', '\x60'].contains then
    some (String.ofList name, c)
  else none

/-! ## Tags -/

/-- The characters of a tag; brackets and commas only if it is meant as it is. -/
def isTagChar (verbatim : Bool) (c : Char) : Bool :=
  isWordChar c ||
    [';', '/', '?', ':', '@', '&', '=', '+', '$', '.', '%', '!', '~', '*', '\'', '(', ')'].contains c ||
    (verbatim && [',', '[', ']'].contains c)

/-- Reads octets written as two hexadecimal digits after a percent sign. -/
def readOctets : Nat → Cursor → Option (List Nat × Cursor)
  | 0, c => some ([], c)
  | n + 1, c => do
    match c.rest with
    | '%' :: a :: b :: _ =>
      let octet ← hexValue? [a, b]
      let (more, c) ← readOctets n (c.skip 3)
      return (octet :: more, c)
    | _ => none

/-- The number of octets of a character that starts with an octet. -/
def octetCount? (first : Nat) : Option Nat :=
  if first < 0x80 then some 1
  else if 0xc0 ≤ first ∧ first < 0xe0 then some 2
  else if 0xe0 ≤ first ∧ first < 0xf0 then some 3
  else if 0xf0 ≤ first ∧ first < 0xf8 then some 4
  else none

/-- Reads a character given by its octets. -/
def readEscapedChar (c : Cursor) : Option (Char × Cursor) := do
  let (octets, _) ← readOctets 1 c
  let first := octets.headD 0
  let count ← octetCount? first
  let (octets, c) ← readOctets count c
  if !octets.tail.all fun o => 0x80 ≤ o && o < 0xc0 then none
  let lead := if count = 1 then first else first % twoPow (7 - count)
  let code := octets.tail.foldl (fun n o => n * 64 + o % 64) lead
  return ((character? code).getD '\ufffd', c)

/-- Reads the characters of a tag. -/
def readTagChars (verbatim : Bool) : Nat → Cursor → Option (List Char × Cursor)
  | 0, _ => none
  | n + 1, c =>
    match c.head? with
    | some d =>
      if d = '%' then do
        let (d, c) ← readEscapedChar c
        let (more, c) ← readTagChars verbatim n c
        return (d :: more, c)
      else if isTagChar verbatim d then do
        let (more, c) ← readTagChars verbatim n (c.skip 1)
        return (d :: more, c)
      else some ([], c)
    | none => some ([], c)

/-- Reads the characters of a tag, at least one. -/
def readTagText (verbatim : Bool) (c : Cursor) : Option (List Char × Cursor) := do
  let (s, after) ← readTagChars verbatim (c.rest.length + 1) c
  if s.isEmpty then none else return (s, after)

/-- Reads a handle: an exclamation mark, perhaps with a name and another mark after it. -/
def readHandle (c : Cursor) : Option (List Char × Cursor) :=
  if !c.sees '!' then none
  else
    let (name, c) := (c.skip 1).takeWhile isWordChar
    if c.sees '!' then some ('!' :: name ++ ['!'], c.skip 1) else some ('!' :: name, c)

/-- Reads a tag: as it is between angle brackets, with a handle, or with an exclamation mark alone,
which may also stand for itself. -/
def readTagParts (c : Cursor) : Option (Token × Cursor) := do
  if c.ahead? 1 == some '<' then
    let (s, c) ← readTagText true (c.skip 2)
    if !c.sees '>' then none
    return (.tag "" (String.ofList s), c.skip 1)
  else
    let (handle, after) ← readHandle c
    if 1 < handle.length && handle.getLast? == some '!' then
      let (s, c) ← readTagText false after
      return (.tag (String.ofList handle) (String.ofList s), c)
    else
      let (s, c) ← readTagChars false (after.rest.length + 1) after
      let suffix := handle.tail ++ s
      if suffix.isEmpty then return (.tag "" "!", c)
      return (.tag "!" (String.ofList suffix), c)

/-- Reads a tag with what must follow it: a gap, or a comma within brackets. -/
def readTag (flow : Bool) (c : Cursor) : Option (Token × Cursor) := do
  let (token, c) ← readTagParts c
  if c.gapAt 0 || (flow && c.sees ',') then return (token, c) else none

/-! ## Directives -/

/-- Reads a number of a version. -/
def readVersionNumber (c : Cursor) : Option (Nat × Cursor) :=
  let (digits, c) := c.takeWhile Char.isDigit
  if digits.length ≤ 9 then (digitsValue? 10 digits).map (·, c) else none

/-- Reads what follows the percent sign of a directive, up to the end of the line. -/
def readDirective (c : Cursor) : Option (Token × Cursor) := do
  let (name, c) := c.takeWhile isWordChar
  if !c.gapAt 0 then none
  let c := c.skipWhile isBlank
  let (token, c) ← match String.ofList name with
    | "YAML" => do
      let (major, c) ← readVersionNumber c
      if !c.sees '.' then none
      let (minor, c) ← readVersionNumber (c.skip 1)
      pure (Token.version major minor, c)
    | "TAG" => do
      let (handle, c) ← readHandle c
      if !(handle = ['!'] || handle.getLast? == some '!') then none
      if !c.blankAt 0 then none
      let (expansion, c) ← readTagText true (c.skipWhile isBlank)
      if !c.gapAt 0 then none
      pure (Token.shorthand (String.ofList handle) (String.ofList expansion), c)
    | _ => none
  let c := (c.skipWhile isBlank).skipComment
  if c.lineEnds then return (token, c.newline) else none

end LocalSearch.Yaml
