import LocalSearch.Random.Draw
/-!
# Roulette wheels

* `roulette`: picks an index with a probability proportional to its weight.

Weights that are not positive are passed over. Without a positive weight, or with weights whose sum
is not finite, every index is as likely as any other.
-/

namespace LocalSearch

variable {α : Type} [Scalar α]

/-- Goes round a wheel: the first index at which what is left of the spin is less than the weight,
and failing that the last index passed. A weight that compares with zero as not above and not below
takes part. -/
def goRound (spin : α) (index last : Nat) : List α → Nat
  | [] => last
  | weight :: rest =>
    if weight ≤ 0 then goRound spin (index + 1) last rest
    else if spin < weight then index
    else goRound (spin - weight) (index + 1) index rest

/-- The sum of the positive weights. -/
def totalWeight (weights : List α) : α :=
  Scalar.sum (weights.filter fun w => (0 : α) < w)

/-- Picks an index of a list of weights; `none` only for the empty list, which draws nothing. -/
def roulette (weights : List α) (random : Random.Stream) : Option Nat × Random.Stream :=
  if weights.isEmpty then (none, random)
  else
    let total := totalWeight weights
    if (0 : α) < total ∧ Scalar.isFinite total then
      let (u, random) : α × Random.Stream := random.unit
      (some (goRound (u * total) 0 0 weights), random)
    else
      let (index, random) := random.belowPositive weights.length
      (some index, random)

end LocalSearch
