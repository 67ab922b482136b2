import LocalSearch.Schedule.Acceptance
import LocalSearch.Sequence.Chain
/-!
# Strategies

A strategy hands the search one proposal after the other. It may change the solution while it looks
for one, for instance go back to the best state, but leaves committing to the search.

* `Proposal`: an accepted move, or a lazy change with the rule that decides on it.
* `Strategy`: the operations of a strategy.
* `Drawn`: what an acceptance strategy gets from one draw.
* `maxAttempts`: the draws an acceptance strategy makes in one call before it gives up.
-/

namespace LocalSearch

/-- What a strategy hands to the search. -/
inductive Proposal (V α : Type)
  /-- An accepted move. -/
  | move (m : Move V α)
  /-- A lazy change, to be accepted or taken back when it is made. -/
  | lazy (c : LazyChange V) (criterion : Criterion α)

namespace Proposal

variable {M V α : Type} [Model M V α] [Scalar α]

omit [Scalar α] in
/-- The known change of the total value, `none` for a lazy change. -/
def delta? : Proposal V α → Option α
  | move m => some m.delta
  | lazy _ _ => none

/-- Commits the proposal. -/
def commit : Proposal V α → Attempt M (Commit α)
  | move m => do
    m.commit
    return .applied m.delta
  | lazy c criterion => c.commit fun _ total delta => criterion.accepts total delta

/-- The proposal in one line. -/
def outline (M : Type) [Model M V α] : Proposal V α → String
  | move m => Outline.tuple "Move" [m.outline M]
  | lazy c _ => Outline.tuple "Lazy" [c.outline M]

end Proposal

/-- A source of proposals for models of type `M`. -/
class Strategy (S M : Type) (V α : outParam Type) where
  name : S → String
  /-- Prepares for a search and resets the learned scores. -/
  init : Act S M α Unit
  /-- The next proposal, or `none` when there is nothing to offer. -/
  select : Act S M α (Option (Proposal V α))
  /-- Notes that the search saved a new best state. -/
  bestSaved : S → S
  /-- Sets all learned scores back. -/
  resetScores : S → S
  outline : S → String

/-- What an acceptance strategy gets from one draw. -/
inductive Drawn (V α : Type)
  /-- The schedule wants to hand over. -/
  | yield
  /-- The picked selector proposed nothing. -/
  | empty
  /-- A candidate of the selector with this index. -/
  | candidate (index : Nat) (c : Candidate V α)

/-- The draws an acceptance strategy makes in one call before it gives up. -/
def maxAttempts : Nat := 10000

section

variable {G M V α : Type} [Scalar α] [MoveGenerator G M V α]

/-- Draws a candidate; a missing one counts as a failure of the chain. -/
def drawCandidate : Act (Heuristic G α) M α (Drawn V α) := do
  match ← Heuristic.draw with
  | (_, none) =>
    Act.change Heuristic.fail
    return .empty
  | (index, some c) => return .candidate index c

/-- Learns from an accepted move that does not make things worse. -/
def rewardMove (index : Nat) (delta : α) : Act (Heuristic G α) M α Unit := do
  let time := (← Act.solution).time
  Act.onPart (Attempt.update fun h => h.reward index delta time)

/-- Reports an accepted move of a selector. -/
def reportAccept (strategy : String) (index : Nat) (delta : α)
    (more : Unit → List (String × FieldValue α)) : Act (Heuristic G α) M α Unit := do
  let h ← Act.part
  Act.report .trace "accept" fun _ => [
    ("strategy", .text strategy), ("selector", .text (h.selectorName index)),
    ("value", .number delta)] ++ more ()

end

end LocalSearch
