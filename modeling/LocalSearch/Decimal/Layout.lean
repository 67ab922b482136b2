import LocalSearch.Decimal.Shortest
/-!
# Layouts of floating-point texts

How the digits of a number are set out. A `Layout` holds the decisions of one format as data, and
`Layout.render` writes a number by them.
-/

namespace LocalSearch

/-- The decisions of a format for floating-point numbers. The position of the point counts digits:
the number is `0.d₁d₂… * 10 ^ position`. -/
structure Layout where
  /-- Point positions at which no exponent is written. -/
  positional : Int → Bool
  /-- A whole number in positional form ends in `.0`. -/
  keepsPoint : Bool
  nan : String
  infinity : String

namespace Layout

/-- A run of zeros. -/
def zeros (n : Nat) : String :=
  String.ofList (List.replicate n '0')

/-- The digits of a positive decimal without sign. -/
def positive (layout : Layout) (d : Decimal) : String :=
  let digits := toString d.digits
  let count : Int := digits.length
  let position := count + d.exponent
  if layout.positional position then
    if 0 ≤ d.exponent then
      digits ++ zeros d.exponent.toNat ++ (if layout.keepsPoint then ".0" else "")
    else if 0 < position then
      String.ofList (digits.toList.take position.toNat) ++ "." ++
        String.ofList (digits.toList.drop position.toNat)
    else
      "0." ++ zeros (-position).toNat ++ digits
  else
    let tail := digits.toList.drop 1
    String.ofList (digits.toList.take 1) ++
      (if tail.isEmpty then "" else "." ++ String.ofList tail) ++
      "e" ++ toString (position - 1)

/-- The text of a number. -/
def render (layout : Layout) (x : Float) : String :=
  let bits := x.toBits
  let sign := if bits >>> 63 = 1 then "-" else ""
  if x.isNaN then layout.nan
  else if x.isInf then sign ++ layout.infinity
  else
    let b := Binary.ofBits bits
    if b.significand = 0 then sign ++ (if layout.keepsPoint then "0.0" else "0")
    else sign ++ layout.positive b.shortest

/-- The plain format: always positional, whole numbers without a point. -/
def plain : Layout := ⟨fun _ => true, false, "NaN", "inf"⟩

/-- The format of descriptions: an exponent from `1e16` upwards and below `1e-4`, and a fraction
otherwise. -/
def outlined : Layout := ⟨fun p => -4 < p && p ≤ 16, true, "NaN", "inf"⟩

end Layout

/-- A number with a fixed count of decimal places, rounded from its exact value; a half goes to the
even digit. -/
def fixedPlaces (places : Nat) (x : Float) : String :=
  let bits := x.toBits
  let sign := if bits >>> 63 = 1 then "-" else ""
  if x.isNaN then "NaN"
  else if x.isInf then sign ++ "inf"
  else
    let b := Binary.ofBits bits
    let number := b.significand * twoPow b.exponent.toNat * tenPow places
    let divisor := twoPow (-b.exponent).toNat
    let low := number / divisor
    let twice := 2 * (number % divisor)
    let rounded := if divisor < twice ∨ (twice = divisor ∧ low % 2 = 1) then low + 1 else low
    let whole := toString (rounded / tenPow places)
    if places = 0 then sign ++ whole
    else
      let fraction := toString (rounded % tenPow places)
      sign ++ whole ++ "." ++ Layout.zeros (places - fraction.length) ++ fraction

end LocalSearch
