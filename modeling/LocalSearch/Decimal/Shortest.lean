import LocalSearch.Power
/-!
# Shortest decimals

The shortest decimal that lies in the interval of reals rounding to a given binary number.

* `Binary`: a finite positive binary number `significand * 2 ^ exponent`.
* `Binary.ofBits`: what the 64 bits of a floating-point number stand for.
* `Decimal`: `digits * 10 ^ exponent`.
* `Binary.shortest`: of the decimals in the rounding interval, those with the fewest digits, and of
  these the nearest.

Everything is exact arithmetic on natural numbers.
-/

namespace LocalSearch

/-- The binary number `significand * 2 ^ exponent`. -/
structure Binary where
  significand : Nat
  exponent : Int
  /-- The next smaller number is half as far away as the next greater one. -/
  lowerGapHalved : Bool
deriving Repr, DecidableEq

/-- The decimal `digits * 10 ^ exponent`. -/
structure Decimal where
  digits : Nat
  exponent : Int
deriving Repr, DecidableEq

namespace Decimal

/-- The same number without trailing zeros in its digits. -/
def normalizeWith : Nat → Decimal → Decimal
  | 0, d => d
  | fuel + 1, d =>
    if d.digits ≠ 0 ∧ d.digits % 10 = 0 then
      normalizeWith fuel ⟨d.digits / 10, d.exponent + 1⟩
    else d

/-- The same number without trailing zeros in its digits. -/
def normalize (d : Decimal) : Decimal :=
  normalizeWith (Nat.toDigits 10 d.digits).length d

end Decimal

namespace Binary

/-- The value of the exponent and fraction fields of 64 bits, for a finite number. -/
def ofBits (bits : UInt64) : Binary :=
  let biased := ((bits >>> 52) &&& 0x7ff).toNat
  let fraction := (bits &&& 0xfffffffffffff).toNat
  if biased = 0 then ⟨fraction, -1074, false⟩
  else ⟨fraction + twoPow 52, (biased : Int) - 1075, fraction = 0 ∧ 1 < biased⟩

/-- Four times the significand, the half gaps below and above it in the same unit, and the point
`10 ^ k`, all scaled to natural numbers: `(number, below, above, point)`. -/
def onGrid (b : Binary) (k : Int) : Nat × Nat × Nat × Nat :=
  let q := b.exponent - 2
  let scale := twoPow q.toNat * tenPow (-k).toNat
  let point := twoPow (-q).toNat * tenPow k.toNat
  (4 * b.significand * scale, (if b.lowerGapHalved then 1 else 2) * scale, 2 * scale, point)

/-- The multiple of `10 ^ k` nearest to the number, if one lies in its rounding interval. The ends
of the interval belong to it when the significand is even; of two equally near multiples the even
one is taken. -/
def multiple? (b : Binary) (k : Int) : Option Nat :=
  let (number, below, above, point) := b.onGrid k
  let closed := b.significand % 2 = 0
  let low := number / point
  let high := low + 1
  let lowGap := number - low * point
  let highGap := high * point - number
  let lowFits := lowGap < below ∨ (closed ∧ lowGap = below)
  let highFits := highGap < above ∨ (closed ∧ highGap = above)
  if lowFits ∧ highFits then
    if lowGap < highGap ∨ (lowGap = highGap ∧ low % 2 = 0) then some low else some high
  else if lowFits then some low
  else if highFits then some high
  else none

/-- Searches ever finer grids, from `10 ^ k` downwards. -/
def shortestFrom (b : Binary) : Nat → Int → Decimal
  | 0, k => ⟨b.multiple? k |>.getD 0, k⟩
  | fuel + 1, k =>
    match b.multiple? k with
    | some digits => if digits = 0 then shortestFrom b fuel (k - 1) else ⟨digits, k⟩
    | none => shortestFrom b fuel (k - 1)

/-- A power of ten above a positive number: every decimal digit needs more than three
binary ones. -/
def magnitude (b : Binary) : Int :=
  ((b.significand.log2 : Int) + b.exponent + 1) * 30103 / 100000 + 1

/-- The shortest decimal in the rounding interval of a positive number. -/
def shortest (b : Binary) : Decimal :=
  (b.shortestFrom 24 b.magnitude).normalize

end Binary

end LocalSearch
