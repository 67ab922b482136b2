/-!
# Painted texts

Texts with the control sequences that make a terminal show them in color.

* `Color`, `painted`, `bold`: a text in a color, and a text in bold type.
* `padLeft`, `padRight`: a text filled up with blanks to a width.
* `grouped`: a count with a comma before every three digits.
-/

namespace LocalSearch.Console

/-- The colors in use. -/
inductive Color
  | white
  | brightBlack
  | brightRed
  | brightGreen
  | brightYellow
  | brightBlue
  | brightMagenta
  | brightCyan
  | brightWhite
deriving Repr, DecidableEq

/-- The number of a color in control sequences. -/
def Color.code : Color → Nat
  | white => 37
  | brightBlack => 90
  | brightRed => 91
  | brightGreen => 92
  | brightYellow => 93
  | brightBlue => 94
  | brightMagenta => 95
  | brightCyan => 96
  | brightWhite => 97

/-- A text in a color, and the usual color after it. -/
def painted (color : Color) (s : String) : String :=
  "\x1b[" ++ toString color.code ++ "m" ++ s ++ "\x1b[39m"

/-- A text in bold type. -/
def bold (s : String) : String :=
  "\x1b[1m" ++ s ++ "\x1b[0m"

/-- Blanks up to a width. -/
def filling (width : Nat) (s : String) : String :=
  String.ofList (List.replicate (width - s.length) ' ')

/-- A text at the right end of a column. -/
def padLeft (width : Nat) (s : String) : String :=
  filling width s ++ s

/-- A text at the left end of a column. -/
def padRight (width : Nat) (s : String) : String :=
  s ++ filling width s

/-- The last digits first, with a comma after every three. -/
def groupedDigits : List Char → List Char
  | a :: b :: c :: d :: rest => a :: b :: c :: ',' :: groupedDigits (d :: rest)
  | rest => rest

/-- A count with a comma before every three digits. -/
def grouped (n : Nat) : String :=
  String.ofList (groupedDigits (toString n).toList.reverse).reverse

end LocalSearch.Console
