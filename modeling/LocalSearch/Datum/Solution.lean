import LocalSearch.Datum.Model
import LocalSearch.Datum.Search
/-!
# Solutions as structured data

* `Solution.bestDatum`: the best state.
* `Solution.outcome`: what a search came to.

Both leave out what depends on how fast the search ran.
-/

namespace LocalSearch

open Datum

variable {M V α : Type} [Scalar α] [DatumModel M V α] [Model M V α]

namespace Solution

omit [DatumModel M V α] in
/-- The best state, with the diagnostics at a choice of keys. -/
def bestDatum (s : Solution M α) (keep : String → Bool) : Datum α :=
  record [("has", flag s.best.isSome), ("iteration", integer s.bestIteration),
    ("value", number s.bestValue), ("complete", flag s.isBestComplete),
    ("perturbation", number s.bestPerturbation),
    ("unassigned", ofNat (Model.bestUnassignedCount s.model)),
    ("info", datum (s.best.map fun best => best.info.filterKeys keep))]

/-- Whether diagnostics do not depend on the speed of the search. -/
def isTimeless (key : String) : Bool :=
  key != "Time" && key != "Speed"

/-- The counters, the total value, the assignment and the best state. -/
def outcome (s : Solution M α) : Except Fault (Datum α) := do
  return record [("iteration", ofNat s.iteration), ("total_iterations", ofNat s.totalIterations),
    ("value", number (← Model.totalValue s.model)),
    ("assigned", datum (← Model.assignments s.model)), ("best", s.bestDatum isTimeless)]

end Solution

end LocalSearch
