import LocalSearch.Text.Reader
import LocalSearch.Yaml.Gap
/-!
# Quoted scalars of YAML

* `readSingle`: a scalar between apostrophes, where two of them stand for one.
* `readDouble`: a scalar between quotes, with escapes.

Both may span several lines, but not the bounds of a document.
-/

namespace LocalSearch.Yaml

open Text

/-- What a short escape stands for. -/
def escape? : Char → Option Char
  | '0' => some '\x00'
  | 'a' => some '\x07'
  | 'b' => some '\x08'
  | 't' | '\t' => some '\t'
  | 'n' => some '\n'
  | 'v' => some '\x0b'
  | 'f' => some '\x0c'
  | 'r' => some '\r'
  | 'e' => some '\x1b'
  | ' ' => some ' '
  | '"' => some '"'
  | '/' => some '/'
  | '\\' => some '\\'
  | 'N' => some '\u0085'
  | '_' => some '\u00a0'
  | 'L' => some '\u2028'
  | 'P' => some '\u2029'
  | _ => none

/-- A word between apostrophes, and how many characters it takes. -/
def singleWord : List Char → List Char × Nat
  | [] => ([], 0)
  | '\'' :: '\'' :: rest =>
    let (s, n) := singleWord rest
    ('\'' :: s, n + 2)
  | '\'' :: _ => ([], 0)
  | c :: rest =>
    if isBlank c || isBreak c then ([], 0)
    else
      let (s, n) := singleWord rest
      (c :: s, n + 1)

/-- A word between quotes, and how many characters it takes. It ends before an escaped line end. -/
def doubleWord : List Char → Option (List Char × Nat)
  | [] => some ([], 0)
  | '"' :: _ => some ([], 0)
  | '\\' :: 'x' :: a :: b :: rest => do
    let x ← character? (← hexValue? [a, b])
    let (s, n) ← doubleWord rest
    return (x :: s, n + 4)
  | '\\' :: 'u' :: a :: b :: c :: d :: rest => do
    let x ← character? (← hexValue? [a, b, c, d])
    let (s, n) ← doubleWord rest
    return (x :: s, n + 6)
  | '\\' :: 'U' :: a :: b :: c :: d :: e :: f :: g :: h :: rest => do
    let x ← character? (← hexValue? [a, b, c, d, e, f, g, h])
    let (s, n) ← doubleWord rest
    return (x :: s, n + 10)
  | '\\' :: c :: rest =>
    if isBreak c then some ([], 0)
    else do
      let x ← escape? c
      let (s, n) ← doubleWord rest
      return (x :: s, n + 2)
  | '\\' :: [] => none
  | c :: rest =>
    if isBlank c || isBreak c then some ([], 0)
    else do
      let (s, n) ← doubleWord rest
      return (c :: s, n + 1)

/-- Reads words and the gaps between them up to the closing quote. -/
def readWords (close : Char) (word : List Char → Option (List Char × Nat)) :
    Nat → Cursor → Option (List Char × Cursor)
  | 0, _ => none
  | n + 1, c =>
    if c.atBound || c.atEnd then none
    else do
      let (s, length) ← word c.rest
      let c := c.skip length
      let joined := c.sees '\\'
      let c := if joined then (c.skip 1).newline else c
      if c.sees close then return (s, c.skip 1)
      let (gap, c) ← Gap.read 0 (n + 1) (if joined then .escaped else .none) c
      let (more, c) ← readWords close word n c
      return (s ++ gap.text ++ more, c)

/-- Reads a scalar after its opening apostrophe. -/
def readSingle (c : Cursor) : Option (List Char × Cursor) :=
  readWords '\'' (fun s => some (singleWord s)) (c.rest.length + 1) c

/-- Reads a scalar after its opening quote. -/
def readDouble (c : Cursor) : Option (List Char × Cursor) :=
  readWords '"' doubleWord (c.rest.length + 1) c

end LocalSearch.Yaml
