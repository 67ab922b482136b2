import LocalSearch.Text.Reader
/-!
# Quoted texts of TOML

* `quoted`: a text between quotes. A text in which something would have to be escaped is written
  between apostrophes, where nothing is, if it may stand there.
* `keyText`: a key, with quotes only if it needs them.
* `readQuoted`, `readKeyPart`: the ways to write a text, and a part of a key.
-/

namespace LocalSearch.Toml

open Text

/-- A control character, which nothing but an escape can stand for. -/
def isControl (c : Char) : Bool :=
  c.toNat < 0x20 || c.toNat == 0x7f

/-! ## Writing -/

/-- The length of the longest run of a character. -/
def longestRun (c : Char) (s : List Char) : Nat :=
  (s.foldl (fun (longest, run) d =>
    if d = c then (max longest (run + 1), run + 1) else (longest, 0)) (0, 0)).1

/-- Whether a text is written between apostrophes: it has a quote or a backslash, no control
characters but tabs and line feeds, no three apostrophes in a row and none at its end. -/
def prefersApostrophes (s : List Char) : Bool :=
  s.any (fun c => c == '"' || c == '\\') &&
    s.all (fun c => !isControl c || c == '\t' || c == '\n') &&
    longestRun '\'' s < 3 && s.getLast? != some '\''

/-- How a character is written between quotes; a line feed is only escaped on a single line. -/
def escaped (single : Bool) (c : Char) : String :=
  match c with
  | '\x08' => "\\b"
  | '\t' => "\\t"
  | '\n' => if single then "\\n" else "\n"
  | '\x0c' => "\\f"
  | '\r' => "\\r"
  | '"' => "\\\""
  | '\\' => "\\\\"
  | c =>
    if isControl c then
      let digits := (Nat.toDigits 16 c.toNat).map Char.toUpper
      "\\u" ++ String.ofList (List.replicate (4 - digits.length) '0' ++ digits)
    else c.toString

/-- The characters of a text as they are written between quotes. -/
def escapedAll (single : Bool) (s : List Char) : String :=
  s.foldl (fun acc c => acc ++ escaped single c) ""

/-- A text as a value. One with line feeds spans several lines. -/
def quoted (s : String) : String :=
  let cs := s.toList
  let lines := cs.contains '\n'
  if prefersApostrophes cs then
    if lines then "'''\n" ++ s ++ "'''"
    else if cs.contains '\'' then "'''" ++ s ++ "'''"
    else "'" ++ s ++ "'"
  else if lines then "\"\"\"\n" ++ escapedAll false cs ++ "\"\"\""
  else "\"" ++ escapedAll true cs ++ "\""

/-- The characters of a key without quotes. -/
def isBare (c : Char) : Bool :=
  c.isAlphanum || c == '-' || c == '_'

/-- A part of a key. -/
def keyText (key : String) : String :=
  let cs := key.toList
  if !cs.isEmpty && cs.all isBare then key
  else if prefersApostrophes cs then "'" ++ key ++ "'"
  else "\"" ++ escapedAll true cs ++ "\""

/-! ## Reading -/

/-- What a short escape stands for. -/
def escape? : Char → Option Char
  | 'b' => some '\x08'
  | 't' => some '\t'
  | 'n' => some '\n'
  | 'f' => some '\x0c'
  | 'r' => some '\r'
  | '"' => some '"'
  | '\\' => some '\\'
  | _ => none

/-- Reads the characters up to a quote on the same line. -/
def basicLine : List Char → Option (List Char × List Char)
  | [] => none
  | '"' :: rest => some ([], rest)
  | '\\' :: 'u' :: a :: b :: c :: d :: rest => do
    let x ← character? (← hexValue? [a, b, c, d])
    let (s, rest) ← basicLine rest
    return (x :: s, rest)
  | '\\' :: 'U' :: a :: b :: c :: d :: e :: f :: g :: h :: rest => do
    let x ← character? (← hexValue? [a, b, c, d, e, f, g, h])
    let (s, rest) ← basicLine rest
    return (x :: s, rest)
  | '\\' :: c :: rest => do
    let x ← escape? c
    let (s, rest) ← basicLine rest
    return (x :: s, rest)
  | c :: rest => do
    if isControl c && c != '\t' then none
    let (s, rest) ← basicLine rest
    return (c :: s, rest)

/-- Whether nothing but blanks comes before the next line feed. -/
def endsLine (s : List Char) : Bool :=
  match s.dropWhile fun c => c == ' ' || c == '\t' with
  | '\n' :: _ => true
  | '\r' :: '\n' :: _ => true
  | _ => false

/-- Reads the characters up to three quotes, of which two more may come directly before. A backslash
at the end of a line joins it to the next text; `joining` says that this is going on. -/
def basicLines (joining : Bool) : List Char → Option (List Char × List Char)
  | [] => none
  | '"' :: '"' :: '"' :: '"' :: '"' :: rest => some (['"', '"'], rest)
  | '"' :: '"' :: '"' :: '"' :: rest => some (['"'], rest)
  | '"' :: '"' :: '"' :: rest => some ([], rest)
  | '\\' :: 'u' :: a :: b :: c :: d :: rest => do
    let x ← character? (← hexValue? [a, b, c, d])
    let (s, rest) ← basicLines false rest
    return (x :: s, rest)
  | '\\' :: 'U' :: a :: b :: c :: d :: e :: f :: g :: h :: rest => do
    let x ← character? (← hexValue? [a, b, c, d, e, f, g, h])
    let (s, rest) ← basicLines false rest
    return (x :: s, rest)
  | '\\' :: c :: rest =>
    match escape? c with
    | some x => do
      let (s, rest) ← basicLines false rest
      return (x :: s, rest)
    | none => if endsLine (c :: rest) then basicLines true (c :: rest) else none
  | '\r' :: '\n' :: rest =>
    if joining then basicLines true rest
    else do
      let (s, rest) ← basicLines false rest
      return ('\n' :: s, rest)
  | c :: rest =>
    if joining && (c == ' ' || c == '\t' || c == '\n') then basicLines true rest
    else if isControl c && c != '\t' && c != '\n' then none
    else do
      let (s, rest) ← basicLines false rest
      return (c :: s, rest)

/-- Reads the characters up to an apostrophe on the same line. -/
def literalLine : List Char → Option (List Char × List Char)
  | [] => none
  | '\'' :: rest => some ([], rest)
  | c :: rest => do
    if isControl c && c != '\t' then none
    let (s, rest) ← literalLine rest
    return (c :: s, rest)

/-- Reads the characters up to three apostrophes, of which two more may come directly before. -/
def literalLines : List Char → Option (List Char × List Char)
  | [] => none
  | '\'' :: '\'' :: '\'' :: '\'' :: '\'' :: rest => some (['\'', '\''], rest)
  | '\'' :: '\'' :: '\'' :: '\'' :: rest => some (['\''], rest)
  | '\'' :: '\'' :: '\'' :: rest => some ([], rest)
  | '\r' :: '\n' :: rest => do
    let (s, rest) ← literalLines rest
    return ('\n' :: s, rest)
  | c :: rest => do
    if isControl c && c != '\t' && c != '\n' then none
    let (s, rest) ← literalLines rest
    return (c :: s, rest)

/-- The rest after a line end, if there is one. -/
def dropLineEnd : List Char → List Char
  | '\n' :: rest => rest
  | '\r' :: '\n' :: rest => rest
  | rest => rest

/-- Reads a text between quotes or apostrophes on one line. -/
def readSingle : Reader String
  | '"' :: rest => (basicLine rest).map fun (s, rest) => (String.ofList s, rest)
  | '\'' :: rest => (literalLine rest).map fun (s, rest) => (String.ofList s, rest)
  | _ => none

/-- Reads a text in one of its four forms. -/
def readQuoted : Reader String
  | '"' :: '"' :: '"' :: rest =>
    (basicLines false (dropLineEnd rest)).map fun (s, rest) => (String.ofList s, rest)
  | '\'' :: '\'' :: '\'' :: rest =>
    (literalLines (dropLineEnd rest)).map fun (s, rest) => (String.ofList s, rest)
  | s => readSingle s

/-- Reads a part of a key. -/
def readKeyPart : Reader String := do
  match ← Reader.peek with
  | some '"' | some '\'' => readSingle
  | _ =>
    let cs ← Reader.takeWhile isBare
    Reader.check !cs.isEmpty
    return String.ofList cs

end LocalSearch.Toml
