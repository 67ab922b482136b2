import LocalSearch.Solution
/-!
# Comparators

Whether the current state of a solution should replace its best one.

* `Comparator`: a rule with its name.
* `Comparator.general`: fewer unassigned variables first, then the lower total value.
-/

namespace LocalSearch

/-- A rule that compares the current state with the best one. -/
structure Comparator (M α : Type) where
  name : String
  isBetter : Solution M α → Except Fault Bool

namespace Comparator

variable {M V α : Type} [Model M V α] [Scalar α]

/-- Fewer unassigned variables first, then the lower total value. Any state is better than none. -/
def general : Comparator M α where
  name := "GeneralComparator"
  isBetter s :=
    match s.best with
    | none => .ok true
    | some best => do
      let unassigned := Model.unassignedCount s.model
      let bestUnassigned := Model.bestUnassignedCount s.model
      if unassigned = bestUnassigned then return (← Model.totalValue s.model) < best.value
      return unassigned < bestUnassigned

end Comparator

end LocalSearch
