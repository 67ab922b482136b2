import LocalSearch.Yaml.Block
import LocalSearch.Yaml.Name
import LocalSearch.Yaml.Plain
import LocalSearch.Yaml.Quoted
/-!
# From text to tokens

* `Lexer`: the position in the text, the tokens so far, the columns of the collections that are open
  by indentation, and the places where a key may have started.
* `Lexer.step`: the next token.
* `tokens?`: the tokens of a text.

Whether a scalar is a key shows only at the colon after it. So the place where a key may have
started is kept until then, for each level of brackets, but not beyond the line or for more than
1024 characters; at the colon the mark of the key goes in between the tokens that are there already.
-/

namespace LocalSearch.Yaml

/-- A place where a key may have started. -/
structure KeyStart where
  /-- The number of tokens before it. -/
  token : Nat
  /-- Nothing but a key can stand there. -/
  required : Bool
  index : Nat
  line : Nat
  column : Nat

/-- The state between two tokens. -/
structure Lexer where
  cursor : Cursor
  tokens : Array Token
  /-- The columns of the open collections without brackets, the innermost first. -/
  columns : List Nat
  /-- A key may start here. -/
  keyAllowed : Bool
  /-- The place where a key of the innermost level of brackets may have started. -/
  key : Option KeyStart
  /-- The same for the outer levels. -/
  outerKeys : List (Option KeyStart)

namespace Lexer

def start (s : List Char) : Lexer := ⟨.start s, #[], [], true, none, []⟩

/-- Whether the position is within brackets. -/
def flow (l : Lexer) : Bool :=
  !l.outerKeys.isEmpty

/-- The column of the innermost open collection, minus one if there is none. -/
def indent (l : Lexer) : Int :=
  match l.columns with
  | column :: _ => column
  | [] => -1

def emit (l : Lexer) (token : Token) : Lexer :=
  { l with tokens := l.tokens.push token }

/-- Adds a token of one or more characters of the text. -/
def emitOver (l : Lexer) (length : Nat) (token : Token) : Lexer :=
  { l.emit token with cursor := l.cursor.skip length }

/-! ## Keys -/

/-- Gives up the place where a key may have started. -/
def dropKey (l : Lexer) : Option Lexer :=
  if l.key.any (·.required) then none else some { l with key := none }

/-- Notes that a key may start here, if it may. -/
def saveKey (l : Lexer) : Option Lexer :=
  if !l.keyAllowed then some l
  else do
    let c := l.cursor
    let l ← l.dropKey
    return { l with key := some {
      token := l.tokens.size, required := !l.flow && l.indent == c.column
      index := c.index, line := c.line, column := c.column } }

/-- Gives up a place that is too far back. -/
def expire (c : Cursor) : Option KeyStart → Option (Option KeyStart)
  | none => some none
  | some k =>
    if k.line < c.line || k.index + 1024 < c.index then
      if k.required then none else some none
    else some (some k)

/-- Gives up all places that are too far back. -/
def expireKeys (l : Lexer) : Option Lexer := do
  return { l with
    key := ← expire l.cursor l.key
    outerKeys := ← l.outerKeys.mapM (expire l.cursor) }

/-! ## Indentation -/

/-- Closes the collections that are indented further than a column. -/
def close (l : Lexer) (column : Int) : Lexer :=
  if l.flow then l
  else
    let closed := (l.columns.takeWhile fun (i : Nat) => column < i).length
    { l with
      columns := l.columns.drop closed
      tokens := l.tokens ++ Array.replicate closed Token.blockEnd }

/-- Opens a collection at a column, with its token at a place among the tokens, unless one is open
there already. -/
def openAt (l : Lexer) (column place : Nat) (token : Token) : Lexer :=
  if !l.flow && l.indent < column then
    { l with
      columns := column :: l.columns
      tokens := l.tokens.insertIdxIfInBounds place token }
  else l

/-- Opens a collection here. -/
def openHere (l : Lexer) (token : Token) : Lexer :=
  l.openAt l.cursor.column l.tokens.size token

/-! ## Single tokens -/

/-- A token that no key can precede on its line. -/
def documentToken (l : Lexer) (read : Lexer → Option Lexer) : Option Lexer := do
  let l ← (l.close (-1)).dropKey
  read { l with keyAllowed := false }

/-- An opening bracket. -/
def openBracket (l : Lexer) (token : Token) : Option Lexer := do
  let l ← l.saveKey
  return { l.emitOver 1 token with
    keyAllowed := true, key := none, outerKeys := l.key :: l.outerKeys }

/-- A closing bracket. -/
def closeBracket (l : Lexer) (token : Token) : Option Lexer := do
  let l ← l.dropKey
  let l := match l.outerKeys with
    | key :: outerKeys => { l with key, outerKeys }
    | [] => l
  return { l.emitOver 1 token with keyAllowed := false }

/-- A comma. -/
def comma (l : Lexer) : Option Lexer := do
  let l ← l.dropKey
  return { l.emitOver 1 .flowEntry with keyAllowed := true }

/-- A dash. -/
def dash (l : Lexer) : Option Lexer := do
  if !l.flow && !l.keyAllowed then none
  let l ← (l.openHere .blockSequence).dropKey
  return { l.emitOver 1 .blockEntry with keyAllowed := true }

/-- The mark before a key. -/
def keyMark (l : Lexer) : Option Lexer := do
  if !l.flow && !l.keyAllowed then none
  let l ← (l.openHere .blockMapping).dropKey
  return { l.emitOver 1 .key with keyAllowed := !l.flow }

/-- A colon, after a key that started where one might, or after a marked key. -/
def colon (l : Lexer) : Option Lexer := do
  match l.key with
  | some k =>
    let l := { l with tokens := l.tokens.insertIdxIfInBounds k.token Token.key }
    let l := l.openAt k.column k.token .blockMapping
    return { l.emitOver 1 .value with key := none, keyAllowed := false }
  | none =>
    if !l.flow && !l.keyAllowed then none
    let l := l.openHere .blockMapping
    return { l.emitOver 1 .value with keyAllowed := !l.flow }

/-- A token that may start a key, read by a function on the position. -/
def keyToken (l : Lexer) (read : Cursor → Option (Token × Cursor)) : Option Lexer := do
  let l ← l.saveKey
  let (token, cursor) ← read l.cursor
  return { l.emit token with cursor, keyAllowed := false }

/-- A block scalar. -/
def blockScalar (l : Lexer) (literal : Bool) : Option Lexer := do
  let l ← l.dropKey
  let (s, cursor) ← readBlock literal l.indent (l.cursor.skip 1)
  return { l.emit (.scalar (String.ofList s) false) with cursor, keyAllowed := true }

/-- A plain scalar; a key may start on the line after it. -/
def plainScalar (l : Lexer) : Option Lexer := do
  let l ← l.saveKey
  let (s, broken, cursor) ← readPlain l.flow (l.indent + 1) l.cursor
  return { l.emit (.scalar (String.ofList s) true) with cursor, keyAllowed := broken }

/-- The characters that cannot start a plain scalar. -/
def isIndicator (c : Char) : Bool :=
  ['-', '?', ':', ',', '[', ']', '\x7b', '\x7d', '#', '&', '*', '!', '|', '>', '\'', '"', '%', '@',
    '\x60'].contains c

/-- Whether a plain scalar starts here. A few indicators may start one if no blank follows them. -/
def startsPlain (l : Lexer) : Bool :=
  let c := l.cursor
  (!c.gapAt 0 && !c.seesOne isIndicator) || (c.sees '-' && !c.blankAt 1) ||
    (!l.flow && (c.sees '?' || c.sees ':') && !c.gapAt 1)

/-- The token at the position. -/
def token (l : Lexer) (d : Char) : Option Lexer :=
  let c := l.cursor
  if c.column == 0 && d == '%' then
    l.documentToken fun l => do
      let (token, cursor) ← readDirective (l.cursor.skip 1)
      return { l.emit token with cursor }
  else if c.seesBound '-' then l.documentToken fun l => some (l.emitOver 3 .documentStart)
  else if c.seesBound '.' then l.documentToken fun l => some (l.emitOver 3 .documentEnd)
  else if d == '[' then l.openBracket .flowSequenceStart
  else if d == '\x7b' then l.openBracket .flowMappingStart
  else if d == ']' then l.closeBracket .flowSequenceEnd
  else if d == '\x7d' then l.closeBracket .flowMappingEnd
  else if d == ',' then l.comma
  else if d == '-' && c.gapAt 1 then l.dash
  else if d == '?' && (l.flow || c.gapAt 1) then l.keyMark
  else if d == ':' && (l.flow || c.gapAt 1) then l.colon
  else if d == '*' then
    l.keyToken fun c => (readName (c.skip 1)).map fun (s, c) => (.alias s, c)
  else if d == '&' then
    l.keyToken fun c => (readName (c.skip 1)).map fun (s, c) => (.anchor s, c)
  else if d == '!' then l.keyToken (readTag l.flow)
  else if d == '|' && !l.flow then l.blockScalar true
  else if d == '>' && !l.flow then l.blockScalar false
  else if d == '\'' then
    l.keyToken fun c => (readSingle (c.skip 1)).map fun (s, c) => (.scalar (String.ofList s) false, c)
  else if d == '"' then
    l.keyToken fun c => (readDouble (c.skip 1)).map fun (s, c) => (.scalar (String.ofList s) false, c)
  else if l.startsPlain then l.plainScalar
  else none

/-! ## All tokens -/

/-- Goes to the next token, over blanks, comments and line ends. Tabs do not count as blanks where a
key may start. -/
def skipVoid : Nat → Lexer → Lexer
  | 0, l => l
  | n + 1, l =>
    let c := l.cursor
    let c := if c.column == 0 && c.sees '\ufeff' then c.skip 1 else c
    let c := c.skipWhile fun d => d == ' ' || (d == '\t' && (l.flow || !l.keyAllowed))
    let c := c.skipComment
    if c.seesOne isBreak then
      skipVoid n { l with cursor := c.newline, keyAllowed := l.keyAllowed || !l.flow }
    else { l with cursor := c }

/-- The next token, or the end of the text. -/
def step (l : Lexer) : Option (Lexer × Bool) := do
  let l ← (skipVoid (l.cursor.rest.length + 1) l).expireKeys
  let l := l.close l.cursor.column
  match l.cursor.head? with
  | none => return (← (l.close (-1)).dropKey, true)
  | some d => return (← l.token d, false)

/-- All tokens, each of at least one character. -/
def run : Nat → Lexer → Option (Array Token)
  | 0, _ => none
  | n + 1, l => do
    let (l, ended) ← l.step
    if ended then return l.tokens else run n l

end Lexer

/-- The tokens of a text. A mark of the byte order may come first. -/
def tokens? (s : String) : Option (Array Token) :=
  let cs := match s.toList with
    | '\ufeff' :: rest => rest
    | cs => cs
  if cs.all allowed then Lexer.run (cs.length + 1) (.start cs) else none

end LocalSearch.Yaml
