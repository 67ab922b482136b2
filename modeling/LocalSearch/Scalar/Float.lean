import LocalSearch.Scalar
import LocalSearch.Decimal.Layout
import LocalSearch.Decimal.Reader
/-!
# Floating-point scalars

The numbers the program runs on.
-/

namespace LocalSearch

/-- Seconds in whole nanoseconds, from the exact value of the number, a half going to the even
nanosecond. -/
def floatNanoseconds? (x : Float) : Option Nat :=
  let bits := x.toBits
  let b := Binary.ofBits bits
  if x.isNaN || x.isInf then none
  else if bits >>> 63 = 1 ∧ b.significand ≠ 0 then none
  else
    let number := b.significand * twoPow b.exponent.toNat * tenPow 9
    let divisor := twoPow (-b.exponent).toNat
    let low := number / divisor
    let twice := 2 * (number % divisor)
    let rounded := if divisor < twice ∨ (twice = divisor ∧ low % 2 = 1) then low + 1 else low
    if rounded < UInt64.size * tenPow 9 then some rounded else none

instance : Scalar Float where
  ofNat := Float.ofNat
  decLt := inferInstance
  decLe := inferInstance
  exp := Float.exp
  pow := Float.pow
  floor := Float.floor
  toCount x := x.round.toUInt64.toNat
  toNanoseconds? := floatNanoseconds?
  display := Layout.plain.render
  outline := Layout.outlined.render
  fixed := fixedPlaces
  parse? := readDecimal?

end LocalSearch
