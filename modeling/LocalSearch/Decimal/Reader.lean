import LocalSearch.Power
/-!
# Reading numbers

* `readDecimal?`: a decimal text as a floating-point number: an optional sign, digits with an
  optional point and an optional exponent, or a name of infinity or of not-a-number in any case.
* `readNatural?`, `readInteger?`: whole numbers with an optional sign.
-/

namespace LocalSearch

/-- The value of a list of decimal digits, added to what was read before. -/
def digitsValue (before : Nat) (digits : List Char) : Nat :=
  digits.foldl (fun n c => n * 10 + (c.toNat - '0'.toNat)) before

/-- A sign, true for minus, and the rest; without a sign the number counts as positive. -/
def splitSign : List Char → Bool × List Char
  | '-' :: rest => (true, rest)
  | '+' :: rest => (false, rest)
  | rest => (false, rest)

/-- Digits and nothing else, at least one. -/
def readDigits? (cs : List Char) : Option Nat :=
  if cs.isEmpty || !cs.all Char.isDigit then none else some (digitsValue 0 cs)

/-- A natural number: an optional plus sign and decimal digits. -/
def readNatural? (s : String) : Option Nat :=
  match s.toList with
  | '+' :: rest => readDigits? rest
  | cs => readDigits? cs

/-- An integer: an optional sign and decimal digits. -/
def readInteger? (s : String) : Option Int :=
  let (negative, rest) := splitSign s.toList
  (readDigits? rest).map fun n => if negative then -(n : Int) else n

/-- A natural number below `2 ^ 64`. -/
def readWord? (s : String) : Option Nat :=
  (readNatural? s).filter (· < UInt64.size)

/-- An integer that fits in 64 bits with sign. -/
def readLong? (s : String) : Option Int :=
  (readInteger? s).filter isLong

/-- The floating-point number nearest to `digits * 10 ^ exponent`. Far outside the range of the
format the answer is zero or infinity, whatever the digits. -/
def nearest (digits : Nat) (exponent : Int) : Float :=
  let magnitude := ((Nat.toDigits 10 digits).length : Int) + exponent
  if digits = 0 ∨ magnitude < -400 then 0
  else if 400 < magnitude then 1 / 0
  else if 0 ≤ exponent then Float.ofScientific digits false exponent.toNat
  else Float.ofScientific digits true (-exponent).toNat

/-- An exponent mark with its exponent, or nothing at all. -/
def readExponent? : List Char → Option Int
  | [] => some 0
  | c :: rest =>
    if c = 'e' ∨ c = 'E' then
      let (negative, digits) := splitSign rest
      (readDigits? digits).map fun n => if negative then -(n : Int) else n
    else none

/-- An unsigned decimal: digits, a point and an exponent, with a digit before the point or after
it. -/
def readUnsigned? (cs : List Char) : Option Float :=
  let whole := cs.takeWhile Char.isDigit
  let afterWhole := cs.dropWhile Char.isDigit
  let (fraction, afterFraction) := match afterWhole with
    | '.' :: rest => (rest.takeWhile Char.isDigit, rest.dropWhile Char.isDigit)
    | rest => ([], rest)
  if whole.isEmpty && fraction.isEmpty then none
  else
    (readExponent? afterFraction).map fun e =>
      nearest (digitsValue (digitsValue 0 whole) fraction) (e - fraction.length)

/-- A decimal text as a floating-point number. -/
def readDecimal? (s : String) : Option Float :=
  let (negative, rest) := splitSign s.toList
  let word := String.ofList (rest.map Char.toLower)
  let magnitude? :=
    if word = "inf" ∨ word = "infinity" then some (1 / 0 : Float)
    else if word = "nan" then some (0 / 0 : Float)
    else readUnsigned? rest
  magnitude?.map fun x => if negative then -x else x

end LocalSearch
