/-!
# Readers

Reading a text from the front.

* `Reader`: takes characters from the front of a list; a reader that fails takes none.
* `Reader.peek`, `Reader.char`, `Reader.takeWhile`, `Reader.word`: the elementary readers.
* `hexValue?`, `character?`: hexadecimal digits and code points.
-/

namespace LocalSearch.Text

/-- Takes characters from the front of a text. -/
abbrev Reader := StateT (List Char) Option

namespace Reader

/-- The next character, which stays. -/
def peek : Reader (Option Char) :=
  return (← get).head?

/-- Whether the rest starts with a character, which stays. -/
def sees (c : Char) : Reader Bool :=
  return (← peek) == some c

/-- Takes a character with a property. -/
def one (p : Char → Bool) : Reader Char
  | c :: rest => if p c then some (c, rest) else none
  | [] => none

/-- Takes one given character. -/
def char (c : Char) : Reader Unit := do
  let _ ← one (· == c)

/-- Takes all characters up to the first without a property. -/
def takeWhile (p : Char → Bool) : Reader (List Char)
  | s => some (s.takeWhile p, s.dropWhile p)

/-- Takes exactly so many characters, each with a property. -/
def exactly (n : Nat) (p : Char → Bool) : Reader (List Char)
  | s =>
    let taken := s.take n
    if taken.length = n ∧ taken.all p then some (taken, s.drop n) else none

/-- Takes a given word. -/
def word (expected : String) : Reader Unit
  | s =>
    let w := expected.toList
    if w.isPrefixOf s then some ((), s.drop w.length) else none

/-- Takes a character if it comes next, and tells whether it did. -/
def optional (c : Char) : Reader Bool
  | s => match s with
    | d :: rest => if d = c then some (true, rest) else some (false, s)
    | [] => some (false, s)

/-- Fails unless a condition holds. -/
def check (condition : Bool) : Reader Unit
  | s => if condition then some ((), s) else none

/-- Goes on as a function on the rest says. -/
def onRest (f : List Char → Option (List Char)) : Reader Unit
  | s => (f s).map ((), ·)

end Reader

/-- The value of a hexadecimal digit. -/
def hexDigit? (c : Char) : Option Nat :=
  if '0' ≤ c ∧ c ≤ '9' then some (c.toNat - '0'.toNat)
  else if 'a' ≤ c ∧ c ≤ 'f' then some (c.toNat - 'a'.toNat + 10)
  else if 'A' ≤ c ∧ c ≤ 'F' then some (c.toNat - 'A'.toNat + 10)
  else none

/-- The value of a list of digits to a base of at most sixteen; at least one digit is needed. -/
def digitsValue? (base : Nat) (digits : List Char) : Option Nat :=
  if digits.isEmpty then none
  else
    digits.foldlM (fun n c => do
      let d ← hexDigit? c
      if d < base then some (n * base + d) else none) 0

/-- The value of a list of hexadecimal digits. -/
def hexValue? (digits : List Char) : Option Nat :=
  digitsValue? 16 digits

/-- The character of a code point, if there is one. -/
def character? (code : Nat) : Option Char :=
  if code.isValidChar then some (Char.ofNat code) else none

end LocalSearch.Text
