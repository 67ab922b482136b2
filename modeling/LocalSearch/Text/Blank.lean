/-!
# Blank characters

* `isBlank`: the characters with the White_Space property.
* `trim`: a text without blank characters at its ends.
* `lines`: the lines of a text, ended by a line feed or by a carriage return and a line feed.
-/

namespace LocalSearch.Text

/-- The White_Space property: the blank ASCII characters, the next-line character and the blank
separators. -/
def isBlank (c : Char) : Bool :=
  let n := c.toNat
  (0x09 ≤ n && n ≤ 0x0d) || n = 0x20 || n = 0x85 || n = 0xa0 || n = 0x1680 ||
    (0x2000 ≤ n && n ≤ 0x200a) || n = 0x2028 || n = 0x2029 || n = 0x202f || n = 0x205f || n = 0x3000

/-- The characters of a list without the blank ones at its ends. -/
def trimList (cs : List Char) : List Char :=
  ((cs.dropWhile isBlank).reverse.dropWhile isBlank).reverse

/-- A text without blank characters at its ends. -/
def trim (s : String) : String :=
  String.ofList (trimList s.toList)

/-- A list cut at every occurrence of a character; one part more than there are occurrences. -/
def splitAt (separator : Char) : List Char → List (List Char)
  | [] => [[]]
  | c :: rest =>
    if c = separator then [] :: splitAt separator rest
    else
      match splitAt separator rest with
      | [] => [[c]]
      | part :: parts => (c :: part) :: parts

/-- One carriage return less at the end, if there is one. -/
def dropReturn (line : List Char) : List Char :=
  match line.reverse with
  | '\r' :: rest => rest.reverse
  | _ => line

/-- The lines of a list of characters. A carriage return before a line feed belongs to the line
end, one at the very end of the text to the line, and no line follows a last line feed. -/
def linesOf (cs : List Char) : List (List Char) :=
  match (splitAt '\n' cs).reverse with
  | [] => []
  | last :: ended =>
    let ended := (ended.map dropReturn).reverse
    if last.isEmpty then ended else ended ++ [last]

/-- The lines of a text. -/
def lines (s : String) : List String :=
  (linesOf s.toList).map String.ofList

end LocalSearch.Text
