/-!
# Positions in a YAML text

* `Cursor`: the rest of a text, and where it starts.
* `Cursor.skip`, `Cursor.newline`: over a character, and over a line end.
* `isBlank`, `isBreak`, `Cursor.blankAt`, …: the classes of characters that matter to YAML.
* `allowed`: the characters a text may hold.
-/

namespace LocalSearch.Yaml

/-- A space or a tab. -/
def isBlank (c : Char) : Bool :=
  c == ' ' || c == '\t'

/-- A character that ends a line. -/
def isBreak (c : Char) : Bool :=
  c == '\n' || c == '\r' || c == '\u0085' || c == '\u2028' || c == '\u2029'

/-- A character of names. -/
def isWordChar (c : Char) : Bool :=
  c.isAlphanum || c == '_' || c == '-'

/-- The characters of a text: no control characters but tabs and line ends. -/
def allowed (c : Char) : Bool :=
  let n := c.toNat
  n = 0x09 || n = 0x0a || n = 0x0d || (0x20 ≤ n && n ≤ 0x7e) || n = 0x85 ||
    (0xa0 ≤ n && n ≤ 0xd7ff) || (0xe000 ≤ n && n ≤ 0xfffd) || 0x10000 ≤ n

/-- A position: the characters to come, how many came before, and the line and the column, counted
from zero. -/
structure Cursor where
  rest : List Char
  index : Nat
  line : Nat
  column : Nat

namespace Cursor

/-- The start of a text. -/
def start (s : List Char) : Cursor := ⟨s, 0, 0, 0⟩

/-- The next character. -/
def head? (c : Cursor) : Option Char :=
  c.rest.head?

/-- The character so many places on. -/
def ahead? (c : Cursor) (i : Nat) : Option Char :=
  c.rest[i]?

/-- Whether a character comes next. -/
def sees (c : Cursor) (d : Char) : Bool :=
  c.head? == some d

/-- Whether the next character has a property. -/
def seesOne (c : Cursor) (p : Char → Bool) : Bool :=
  c.head?.any p

def atEnd (c : Cursor) : Bool :=
  c.rest.isEmpty

/-- Whether a space or a tab comes so many places on. -/
def blankAt (c : Cursor) (i : Nat) : Bool :=
  (c.ahead? i).any isBlank

/-- Whether a blank, a line end or the end of the text comes so many places on. -/
def gapAt (c : Cursor) (i : Nat) : Bool :=
  (c.ahead? i).all fun d => isBlank d || isBreak d

/-- Whether a line end or the end of the text comes next. -/
def lineEnds (c : Cursor) : Bool :=
  c.head?.all isBreak

/-- Goes over so many characters of a line. -/
def skip (c : Cursor) (n : Nat) : Cursor :=
  ⟨c.rest.drop n, c.index + n, c.line, c.column + n⟩

/-- Goes over a line end, if there is one. -/
def newline (c : Cursor) : Cursor :=
  match c.rest with
  | '\r' :: '\n' :: rest => ⟨rest, c.index + 2, c.line + 1, 0⟩
  | d :: rest => if isBreak d then ⟨rest, c.index + 1, c.line + 1, 0⟩ else c
  | [] => c

/-- What a line end counts as: most count as line feeds. -/
def breakText (c : Cursor) : List Char :=
  match c.head? with
  | some d =>
    if d == '\u2028' || d == '\u2029' then [d] else if isBreak d then ['\n'] else []
  | none => []

/-- Goes over all characters up to the first without a property. -/
def skipWhile (c : Cursor) (p : Char → Bool) : Cursor :=
  c.skip (c.rest.takeWhile p).length

/-- The characters up to the first without a property, and the position after them. -/
def takeWhile (c : Cursor) (p : Char → Bool) : List Char × Cursor :=
  let taken := c.rest.takeWhile p
  (taken, c.skip taken.length)

/-- Whether a mark that bounds a document comes next: three equal characters at the start of a line,
and nothing directly after them. -/
def seesBound (c : Cursor) (d : Char) : Bool :=
  c.column == 0 && c.rest.take 3 == [d, d, d] && c.gapAt 3

/-- Whether a document starts or ends here. -/
def atBound (c : Cursor) : Bool :=
  c.seesBound '-' || c.seesBound '.'

/-- Goes over a comment, if there is one. -/
def skipComment (c : Cursor) : Cursor :=
  if c.sees '#' then c.skipWhile (!isBreak ·) else c

end Cursor

end LocalSearch.Yaml
