import LocalSearch.Solver
/-!
# Solving

The whole way from a model and a property set to a solution.

* `solve`: builds the configured solver, runs it to its end, and hands back the world with the
  solution. A failed search is an error.
-/

namespace LocalSearch

variable {X M V α : Type} [Scalar α] [Model M V α] [MoveGenerator X M V α]

/-- The error of a search that failed. What went wrong is in the journal. -/
def searchFailed : SearchError :=
  .search "the search failed, see the solve_failed event"

/-- Solves a model with the generators and strategies of a registry. A search that takes more than a
number of steps is a fault. -/
def solve (model : M) (props : Properties) (r : Registry X) (entropy : UInt64) (clock : Nat → α)
    (threshold : Option Level) (steps : Nat) : Except Failure (World M α) := do
  let solver : Solver (AnyStrategy (Generator X α) α) M V α ←
    Solver.ofProperties model props r entropy clock threshold
  let some solver ← solver.solve steps | throw (.fault .endless)
  if solver.state = .failed then throw (.error searchFailed)
  let world := solver.world
  return world.report .debug "solved" fun _ => [
    ("state", .shown solver.state.display), ("best_value", .number world.solution.bestValue)]

end LocalSearch
