import LocalSearch.Text.Visible
/-!
# Quoted texts

* `escape`: how a character is written between quotes.
* `quoted`: a text between quotes.
-/

namespace LocalSearch.Text

/-- The lower-case hexadecimal digits of a number. -/
def hex (n : Nat) : String :=
  String.ofList (Nat.toDigits 16 n)

/-- How a character is written between quotes: the usual short escapes, itself if it is visible,
and its code point in braces otherwise. -/
def escape (c : Char) : String :=
  if c = '"' then "\\\""
  else if c = '\\' then "\\\\"
  else if c = '\t' then "\\t"
  else if c = '\r' then "\\r"
  else if c = '\n' then "\\n"
  else if c.toNat = 0 then "\\0"
  else if isVisible c then c.toString
  else "\\u\x7b" ++ hex c.toNat ++ "\x7d"

/-- A text between quotes. -/
def quoted (s : String) : String :=
  "\"" ++ s.toList.foldl (fun acc c => acc ++ escape c) "" ++ "\""

end LocalSearch.Text
