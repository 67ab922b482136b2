import LocalSearch.Config.Sequence
import LocalSearch.Model.Basic
/-!
# Score tables

What a heuristic sequence over `k` selectors has learned.

* `Scores`: how well each selector followed each other one, with a row for the start of a chain, and
  how often its use continued or ended a chain.
* `Scores.reward`: adds to one cell of each table.
* `learningIncrement`: by how much.

Every cell starts at one, and no reward lowers it.
-/

namespace LocalSearch

/-- The score tables of a sequence. -/
structure Scores (α : Type) where
  /-- Row 0 belongs to the start of a chain, row `i + 1` to selector `i` coming last. -/
  transitions : List (List α)
  /-- For each selector, the scores of continuing and of ending a chain. -/
  outcomes : List (α × α)
deriving Repr, DecidableEq

namespace Scores

variable {α : Type} [Scalar α]

/-- Fresh tables for `k` selectors. -/
def fresh (k : Nat) : Scores α :=
  ⟨List.replicate (k + 1) (List.replicate k 1), List.replicate k (1, 1)⟩

omit [Scalar α] in
/-- The number of selectors. -/
def selectorCount (s : Scores α) : Nat :=
  s.outcomes.length

/-- All cells back at one. -/
def reset (s : Scores α) : Scores α :=
  fresh s.selectorCount

omit [Scalar α] in
/-- The score of a selector following a row. -/
def transition (s : Scores α) (previous current : Nat) : Except Fault α := do
  fetch (← fetch s.transitions previous) current

omit [Scalar α] in
/-- The score of a selector's use continuing or ending a chain. -/
def outcome (s : Scores α) (current : Nat) (ended : Bool) : Except Fault α := do
  let (continuedScore, endedScore) ← fetch s.outcomes current
  return if ended then endedScore else continuedScore

/-- Adds a positive amount to one cell of each table; any other amount changes nothing. -/
def reward (s : Scores α) (previous current : Nat) (ended : Bool) (amount : α) :
    Except Fault (Scores α) := do
  if ¬(0 : α) < amount then return s
  let row ← fetch s.transitions previous
  let row ← store row current ((← fetch row current) + amount)
  let (continuedScore, endedScore) ← fetch s.outcomes current
  let outcome :=
    if ended then (continuedScore, endedScore + amount) else (continuedScore + amount, endedScore)
  return { transitions := ← store s.transitions previous row
           outcomes := ← store s.outcomes current outcome }

/-- The tables in one line. -/
def outline (s : Scores α) : String :=
  Outline.record "SequenceScores" [
    ("transitions", Outline.list (s.transitions.map fun row =>
      Outline.list (row.map Scalar.outline))),
    ("outcomes", Outline.list (s.outcomes.map fun (continuedScore, endedScore) =>
      Outline.list [Scalar.outline continuedScore, Scalar.outline endedScore]))]

end Scores

/-- The reward of an accepted move that changed the total by `delta` at a time in seconds: one, the
improvement, or a number that grows by the factor `e` every thirty seconds up to a limit. -/
def learningIncrement {α : Type} [Scalar α] (method : LearningMethod) (delta time : α) : α :=
  match method with
  | .count => 1
  | .timeWeighted => Scalar.smaller (Scalar.floor (Scalar.exp (time / 30))) 1000000000000
  | .delta => -delta

end LocalSearch
