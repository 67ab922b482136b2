import LocalSearch.Random.Draw
/-!
# Acceptance rules

When a move that makes things worse is accepted all the same.

* `Acceptance`: the annealing rule at a fixed temperature, with `Acceptance.probability` and
  `Acceptance.accept`.
* `vote`: the weighted vote of the great deluge and the annealing rule.
* `LazyJudge`, `Criterion`: the rule that goes along with a lazy change, as data.
  `Criterion.accepts` applies it to the changed model.
-/

namespace LocalSearch

variable {α : Type} [Scalar α]

/-- The annealing rule at a fixed temperature. -/
structure Acceptance (α : Type) where
  temperature : α
  /-- The probability is logistic. -/
  stochastic : Bool

namespace Acceptance

/-- The probability of accepting a change for the worse by `delta`; any other change is certain. -/
def probability (a : Acceptance α) (delta : α) : α :=
  if delta ≤ 0 then 1
  else if a.stochastic then 1 / (1 + Scalar.exp (delta / a.temperature))
  else Scalar.exp (-delta / a.temperature)

/-- Accepts with the probability; a certain change draws nothing. -/
def accept (a : Acceptance α) (delta : α) (random : Random.Stream) : Bool × Random.Stream :=
  let p := a.probability delta
  if (1 : α) ≤ p then (true, random)
  else
    let (u, random) : α × Random.Stream := random.unit
    (u < p, random)

end Acceptance

/-- The weighted vote of the great deluge and of annealing: more than a half of one, where the first
counts 0.35 and the second 0.45. -/
def vote (α : Type) [Scalar α] (deluge annealing : Bool) : Bool :=
  let count (b : Bool) : α := if b then 1 else 0
  0.5 < count deluge * (0.35 : α) + count annealing * 0.45

/-- The annealing rule with a random stream of its own. -/
structure LazyJudge (α : Type) where
  acceptance : Acceptance α
  /-- Judges the effect of the change instead of the distance from a reference value. -/
  relative : Bool
  random : Random.Stream

namespace LazyJudge

/-- Judges a change by `delta` to a total. -/
def accepts (j : LazyJudge α) (reference total delta : α) : Bool :=
  (j.acceptance.accept (if j.relative then delta else total - reference) j.random).1

end LazyJudge

/-- The rule that goes along with a lazy change. -/
inductive Criterion (α : Type)
  /-- Accepts what does not make things worse. -/
  | nonWorsening
  /-- Accepts also what stays below a bound. -/
  | underBound (bound : Option α)
  /-- Accepts by the annealing rule. -/
  | annealing (judge : LazyJudge α) (reference : α)
  /-- Lets the bound and, if there is one, the annealing rule vote. -/
  | group (bound : Option α) (judge : Option (LazyJudge α)) (reference : α)

namespace Criterion

/-- Whether a total after a change by `delta` is under water. -/
def underWater (bound : Option α) (total delta : α) : Bool :=
  delta ≤ 0 || bound.any fun b => total ≤ b

/-- Applies the rule to the total value of the changed model and the difference made. -/
def accepts (c : Criterion α) (total delta : α) : Bool :=
  match c with
  | nonWorsening => delta ≤ 0
  | underBound bound => underWater bound total delta
  | annealing judge reference => judge.accepts reference total delta
  | group bound none _ => underWater bound total delta
  | group bound (some judge) reference =>
    vote α (underWater bound total delta) (judge.accepts reference total delta)

end Criterion

end LocalSearch
