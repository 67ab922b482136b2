import LocalSearch.Power
/-!
# Scalars

Penalties, weights, temperatures, water levels and times are all measured in one number type, and
every algorithm of this library is written over a `Scalar` instance instead of a fixed one: the
program runs on `Float` (`LocalSearch.Scalar.Float`), and a statement "in exact arithmetic" is the
same definition read over an ordered field.

* `Scalar`: the operations an algorithm may use, with their texts.
* `Scalar.larger`, `Scalar.smaller`: the greater and the lesser of two, passing over a number that
  differs from itself.
* `Scalar.sum`: a sum from the left, starting at minus zero.
* `Scalar.power`: a natural power by repeated squaring.
* `Scalar.signedPower`: a power whose exponent is a 32-bit word with a sign.
* `Scalar.unit`: a random word as a number of the interval from zero (included) to one.
-/

namespace LocalSearch

/-- A number type for penalties and times, with the comparisons, functions and texts the search
uses. Nothing is assumed about the operations: on `Float` the order is partial and the arithmetic
rounds. -/
class Scalar (α : Type) extends
    Add α, Sub α, Mul α, Div α, Neg α, LT α, LE α, BEq α, OfScientific α where
  /-- The number nearest to a count. -/
  ofNat : Nat → α
  decLt : ∀ a b : α, Decidable (a < b)
  decLe : ∀ a b : α, Decidable (a ≤ b)
  /-- The exponential function. -/
  exp : α → α
  /-- The first number raised to the second. -/
  pow : α → α → α
  /-- The greatest whole number not above. -/
  floor : α → α
  /-- The nearest count, a half going away from zero, held between 0 and `2 ^ 64 - 1`. -/
  toCount : α → Nat
  /-- A number of seconds in whole nanoseconds, to the nearest and a half to the even one; `none`
  if it is negative, not a number, or `2 ^ 64` seconds and more. -/
  toNanoseconds? : α → Option Nat
  /-- The plain text: the shortest decimal that reads back, never with an exponent. -/
  display : α → String
  /-- The text in descriptions of values, which shows that the value is not a whole count. -/
  outline : α → String
  /-- The text with a fixed number of decimal places. -/
  fixed : Nat → α → String
  /-- Reads a decimal text. -/
  parse? : String → Option α

namespace Scalar

variable {α : Type} [Scalar α]

instance (priority := low) instOfNat {n : Nat} : OfNat α n := ⟨ofNat n⟩

instance instDecidableLt (a b : α) : Decidable (a < b) := decLt a b

instance instDecidableLe (a b : α) : Decidable (a ≤ b) := decLe a b

/-- The greater of two numbers; if one of them differs from itself, the other. -/
def larger (a b : α) : α :=
  if a < b then b else if a == a then a else b

/-- The lesser of two numbers; if one of them differs from itself, the other. -/
def smaller (a b : α) : α :=
  if b < a then b else if a == a then a else b

/-- Whether the distance of a number from itself is a number, which fails for the infinities. -/
def isFinite (a : α) : Bool :=
  (a - a) == (a - a)

/-- The sum of a list from the left. It starts at minus zero, the neutral element of an addition
that tells the two zeros apart. -/
def sum (xs : List α) : α :=
  xs.foldl (· + ·) (-0)

/-- Multiplies `acc` by `a ^ n`, squaring `a` once for every binary digit of `n`. -/
def powerFrom (acc a : α) (n : Nat) : α :=
  let acc := if n % 2 = 1 then acc * a else acc
  if h : n / 2 = 0 then acc else powerFrom acc (a * a) (n / 2)
termination_by n
decreasing_by omega

/-- A natural power by repeated squaring. -/
def power (a : α) (n : Nat) : α :=
  powerFrom 1 a n

/-- A power whose exponent is a 32-bit word with a sign: the upper half of the words is negative. -/
def signedPower (a : α) (n : Nat) : α :=
  let word := n % UInt32.size
  if word < UInt32.size / 2 then power a word else 1 / power a (UInt32.size - word)

/-- The 53 high bits of a random word as a fraction of `2 ^ 53`. -/
def unit (word : UInt64) : α :=
  ofNat (word >>> 11).toNat / ofNat (twoPow 53)

end Scalar

end LocalSearch
