import LocalSearch.Yaml.Cursor
/-!
# Block scalars of YAML

Scalars that consist of the indented lines after their header, literally or with single line feeds
turned into blanks.

* `Chomping`, `Header`: what the header says.
* `readBlock`: reads a block scalar after its mark.
-/

namespace LocalSearch.Yaml

/-- What becomes of the line ends after the last line. -/
inductive Chomping
  /-- The last line keeps its own. -/
  | clip
  | strip
  | keep
deriving Repr, DecidableEq

/-- What the header of a block scalar says. -/
structure Header where
  chomping : Chomping
  /-- The indentation relative to the surrounding collection, if it is given. -/
  increment : Option Nat

/-- Reads a chomping mark, if there is one. -/
def readChomping (c : Cursor) : Option Chomping × Cursor :=
  if c.sees '+' then (some .keep, c.skip 1)
  else if c.sees '-' then (some .strip, c.skip 1)
  else (none, c)

/-- Reads an indentation mark, if there is one; it must not be zero. -/
def readIncrement (c : Cursor) : Option (Option Nat × Cursor) :=
  match c.head? with
  | some d =>
    if d == '0' then none
    else if d.isDigit then some (some (d.toNat - '0'.toNat), c.skip 1)
    else some (none, c)
  | none => some (none, c)

/-- Reads the header of a block scalar with its line end. -/
def Header.read (c : Cursor) : Option (Header × Cursor) := do
  let (first, c) := readChomping c
  let (increment, c) ← readIncrement c
  let (chomping, c) := match first with
    | some _ => (first, c)
    | none => if increment.isSome then readChomping c else (none, c)
  let c := (c.skipWhile isBlank).skipComment
  if !c.lineEnds then none
  return (⟨chomping.getD .clip, increment⟩, c.newline)

/-- Reads indentation and the line ends of lines that hold nothing else. Without a known indentation
also answers the widest one seen. -/
def readBreaks (indent : Option Nat) : Nat → Nat → Cursor → Option (Nat × List Char × Cursor)
  | 0, _, _ => none
  | n + 1, widest, c =>
    let spaces := (c.rest.takeWhile (· == ' ')).length
    let c := c.skip (match indent with
      | none => spaces
      | some i => min spaces (i - c.column))
    let widest := max widest c.column
    if c.sees '\t' && (match indent with
      | none => true
      | some i => c.column < i) then none
    else if c.seesOne isBreak then do
      let (widest, more, c') ← readBreaks indent n widest c.newline
      return (widest, c.breakText ++ more, c')
    else some (widest, [], c)

/-- A line end between two lines, before further line ends: within a folded scalar a line feed
between lines that do not start with a blank counts as a blank, or as nothing if more follow. -/
def foldBreak (literal : Bool) (line more : List Char) (blankBefore blankAfter : Bool) : List Char :=
  if !literal && line == ['\n'] && !blankBefore && !blankAfter then
    if more.isEmpty then [' '] else more
  else line ++ more

/-- Reads the lines of a block scalar. Before them come the line end of the line before and the line
ends of empty lines. -/
def readLines (literal : Bool) (chomping : Chomping) (indent : Nat) :
    Nat → (blankBefore : Bool) → (line more : List Char) → Cursor → Option (List Char × Cursor)
  | 0, _, _, _, _ => none
  | n + 1, blankBefore, line, more, c =>
    if c.column == indent && !c.atEnd then do
      let blank := c.blankAt 0
      let (content, after) := c.takeWhile (!isBreak ·)
      let (_, breaks, next) ← readBreaks (some indent) (n + 1) 0 after.newline
      let (rest, c) ← readLines literal chomping indent n blank after.breakText breaks next
      return (foldBreak literal line more blankBefore blank ++ content ++ rest, c)
    else
      some (match chomping with
        | .strip => []
        | .clip => line
        | .keep => line ++ more, c)

/-- Reads a block scalar after its mark, within a collection at a column. -/
def readBlock (literal : Bool) (parent : Int) (c : Cursor) : Option (List Char × Cursor) := do
  let (header, c) ← Header.read c
  let fuel := c.rest.length + 1
  let known := header.increment.map fun n => (max parent 0).toNat + n
  let (widest, breaks, c) ← readBreaks known fuel 0 c
  let indent := known.getD (max widest (max (parent + 1).toNat 1))
  readLines literal header.chomping indent fuel false [] breaks c

end LocalSearch.Yaml
