import LocalSearch.Random.Stream
import LocalSearch.Scalar
import LocalSearch.Failure
/-!
# Draws

What a search draws from a random stream.

* `Stream.unit`: a number of the interval from zero (included) to one.
* `Stream.below`: one of the first `n` natural numbers, a fault when there is none.
* `Stream.choose`: one of at least one items.
* `Stream.pair`: two different numbers below a bound, in random order.
-/

namespace LocalSearch.Random.Stream

/-- A number of the interval from zero (included) to one, from two words. -/
def unit {α : Type} [Scalar α] (s : Stream) : α × Stream :=
  let (word, s) := s.next64
  (Scalar.unit word, s)

/-- A number below `n` with `0 < n < 2 ^ 32`, from one word or two. The first word is multiplied by
`n`; the high half is the answer, raised by one if the product of a second word, drawn only when the
low half is near its end, carries into it. -/
def below32 (n : Nat) (s : Stream) : Nat × Stream :=
  let (x, s) := s.next32
  let product := x.toNat * n
  let high := product / UInt32.size
  let low := product % UInt32.size
  if UInt32.size - n < low then
    let (y, s) := s.next32
    let carry := y.toNat * n / UInt32.size
    (if UInt32.size ≤ low + carry then high + 1 else high, s)
  else (high, s)

/-- A number below `n` with `2 ^ 32 ≤ n < 2 ^ 64`, in the same way from words of twice the
length. -/
def below64 (n : Nat) (s : Stream) : Nat × Stream :=
  let (x, s) := s.next64
  let product := x.toNat * n
  let high := product / UInt64.size
  let low := product % UInt64.size
  if UInt64.size - n < low then
    let (y, s) := s.next64
    let carry := y.toNat * n / UInt64.size
    (if UInt64.size ≤ low + carry then high + 1 else high, s)
  else (high, s)

/-- A number below `n > 0`. -/
def belowPositive (n : Nat) (s : Stream) : Nat × Stream :=
  if n < UInt32.size then s.below32 n else s.below64 n

/-- A number below `n`; there is none below zero. -/
def below (n : Nat) (s : Stream) : Except Fault (Nat × Stream) :=
  if n = 0 then .error .emptyRange else .ok (s.belowPositive n)

/-- Two different numbers below `n`, for `2 ≤ n`: the first is drawn below `n - 1`, the second below
`n`, and if both are equal, the first one becomes `n - 1`. -/
def pair (n : Nat) (s : Stream) : (Nat × Nat) × Stream :=
  let (first, s) := s.belowPositive (n - 1)
  let (second, s) := s.belowPositive n
  ((if second = first then n - 1 else first, second), s)

end LocalSearch.Random.Stream
