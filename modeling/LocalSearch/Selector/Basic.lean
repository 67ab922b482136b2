import LocalSearch.Move
import LocalSearch.Random.Draw
/-!
# Generators and selectors

A generator inspects a model and proposes a candidate. A selector is a generator with a name, a
fixed bonus and points that follow its success; sequences and pools choose between selectors.

* `MoveGenerator`: the operations of a generator.
* `Selector`: a generator with its weights and counters.
* `Selector.updatePoints`: the moving average of improvements.
* `draw`: a number below a bound as an operation on a random stream.
-/

namespace LocalSearch

/-- A number below `n > 0`. -/
def draw (n : Nat) : Attempt Random.Stream Nat :=
  modifyGet (·.belowPositive n)

/-- A proposer of candidates for models of type `M`. One call looks at every candidate at most
once. -/
class MoveGenerator (G M : Type) (V α : outParam Type) where
  /-- Prepares for a search. -/
  init : M → Attempt G Unit
  /-- Proposes a candidate, or nothing when there is none. -/
  propose : M → Attempt (G × Random.Stream) (Option (Candidate V α))
  /-- In hill-climbing mode, candidates that make things worse are passed over. -/
  setHillClimbing : Bool → G → G
  outline : G → String

/-- A generator with its selection weights. -/
structure Selector (G α : Type) where
  name : String
  generator : G
  bonus : α
  points : α
  /-- Calls since the search was prepared. -/
  calls : Nat
  /-- Candidates proposed since the search was prepared. -/
  found : Nat

namespace Selector

variable {G M V α : Type} [Scalar α]

/-- A selector at the start of everything, with one point. -/
def of (name : String) (generator : G) (bonus : α) : Selector G α :=
  { name, generator, bonus, points := 1, calls := 0, found := 0 }

/-- The weight on a roulette wheel. -/
def weight (s : Selector G α) : α :=
  s.bonus * s.points

/-- Folds an improvement into the points: a tenth of it, or of zero if it is negative, and nine
tenths of the points so far, but never less than a thousandth. -/
def updatePoints (s : Selector G α) (improvement : α) : Selector G α :=
  let reward := Scalar.larger improvement 0
  { s with points := Scalar.larger ((1 - 0.1) * s.points + 0.1 * reward) 0.001 }

/-- The name and the weights in one line. -/
def outline (s : Selector G α) : String :=
  Outline.record "NeighbourSelector" [
    ("name", Text.quoted s.name), ("bonus", Scalar.outline s.bonus),
    ("points", Scalar.outline s.points)]

variable [MoveGenerator G M V α]

omit [Scalar α] in
/-- Prepares for a search: resets the counters, but not the points. -/
def init (model : M) : Attempt (Selector G α) Unit := do
  modify fun s => { s with calls := 0, found := 0 }
  Attempt.focus (·.generator) (fun s generator => { s with generator }) (MoveGenerator.init model)

omit [Scalar α] in
/-- Proposes a candidate and counts. -/
def propose (model : M) : Attempt (Selector G α × Random.Stream) (Option (Candidate V α)) := do
  modify fun (s, random) => ({ s with calls := s.calls + 1 }, random)
  let candidate ← Attempt.focus
    (fun (s, random) => (s.generator, random))
    (fun (s, _) (generator, random) => ({ s with generator }, random))
    (MoveGenerator.propose model)
  if candidate.isSome then
    modify fun (s, random) => ({ s with found := s.found + 1 }, random)
  return candidate

omit [Scalar α] in
/-- Changes the mode of the generator. -/
def setHillClimbing (M : Type) [MoveGenerator G M V α] (enabled : Bool) (s : Selector G α) :
    Selector G α :=
  { s with generator := MoveGenerator.setHillClimbing M enabled s.generator }

end Selector

end LocalSearch
