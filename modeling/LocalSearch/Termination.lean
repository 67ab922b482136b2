import LocalSearch.Config.Search
import LocalSearch.Solution
/-!
# Termination

When a search ends on its own.

* `Condition`: one condition on a solution.
* `Termination`: a list of conditions, of which one must hold. The empty list never ends a search.
-/

namespace LocalSearch

/-- A condition that ends a search. -/
inductive Condition
  /-- The best state assigns every variable. -/
  | bestComplete
  /-- So many updates were counted, also those that going back to the best state took back. -/
  | iterations (limit : Nat)
  /-- The time has reached a limit. -/
  | time (limit : Duration)
deriving Repr, DecidableEq

namespace Condition

variable {M α : Type} [Scalar α]

/-- Whether the condition holds. -/
def holds (s : Solution M α) : Condition → Bool
  | bestComplete => s.isBestComplete
  | iterations limit => limit ≤ s.totalIterations
  | time limit => limit.toScalar ≤ s.time

def outline : Condition → String
  | bestComplete => "StopWhenComplete"
  | iterations limit => Outline.record "IterationLimit" [("limit", toString limit)]
  | time limit => Outline.record "TimeLimit" [("limit", limit.outline)]

end Condition

/-- The conditions that end a search. -/
abbrev Termination := List Condition

namespace Termination

/-- Whether one of the conditions holds. -/
def holds {M α : Type} [Scalar α] (t : Termination) (s : Solution M α) : Bool :=
  t.any (·.holds s)

/-- The configured conditions. -/
def ofConfig (c : TerminationConfig) : Termination :=
  (if c.stopWhenComplete then [.bestComplete] else []) ++
    (c.maxIters.map Condition.iterations).toList ++ (c.timeout.map Condition.time).toList

/-- Reads the conditions; `α` is the number type of the time limit. -/
def ofProperties (α : Type) [Scalar α] (props : Properties) :
    Except ConfigError (Except Fault Termination) :=
  (·.map ofConfig) <$> TerminationConfig.ofProperties α props

def outline (t : Termination) : String :=
  Outline.record "GeneralTermination" [("conditions", Outline.list (t.map Condition.outline))]

end Termination

end LocalSearch
