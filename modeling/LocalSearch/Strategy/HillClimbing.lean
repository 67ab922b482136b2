import LocalSearch.Config.Acceptance
import LocalSearch.Strategy.Basic
/-!
# Hill climbing

Accepts the candidates that do not make things worse. After a number of attempts without a new best
state the strategy offers nothing once and counts anew.
-/

namespace LocalSearch

/-- Hill climbing over a heuristic sequence. -/
structure HillClimbing (G α : Type) where
  heuristic : Heuristic G α
  /-- The attempts without a new best state after which the strategy gives up. -/
  maxIdle : Nat
  iteration : Nat
  /-- The iteration of the last new best state. -/
  lastImproving : Nat

namespace HillClimbing

variable {G M V α : Type} [Scalar α]

omit [Scalar α] in
/-- A strategy before a search. -/
def of (sequence : Sequence G α) (maxIdle : Nat) : HillClimbing G α :=
  ⟨.of sequence, maxIdle, 0, 0⟩

omit [Scalar α] in
/-- Attempts since the last new best state. -/
def idle (h : HillClimbing G α) : Nat :=
  h.iteration - h.lastImproving

omit [Scalar α] in
/-- Counts from the beginning. -/
def restartCount (h : HillClimbing G α) : HillClimbing G α :=
  { h with iteration := 0, lastImproving := 0 }

/-- An operation on the heuristic. -/
@[inline]
def onHeuristic {β : Type} (x : Act (Heuristic G α) M α β) : Act (HillClimbing G α) M α β :=
  Act.within (·.heuristic) (fun h heuristic => { h with heuristic }) x

variable [MoveGenerator G M V α]

/-- Prepares for a search. -/
def init : Act (HillClimbing G α) M α Unit := do
  let model := (← Act.solution).model
  onHeuristic (Act.onPart (Heuristic.init model))
  Act.change fun h => restartCount { h with
    heuristic := { h.heuristic with
      sequence := h.heuristic.sequence.setHillClimbing M true } }

/-- One attempt: a proposal, an offer of nothing after too many attempts, or no answer yet. -/
def attempt : Act (HillClimbing G α) M α (Option (Option (Proposal V α))) := do
  Act.change fun h => { h with iteration := h.iteration + 1 }
  let h ← Act.part
  if h.maxIdle ≤ h.idle then
    Act.report .debug "idle" fun _ => [
      ("strategy", .text "hill_climbing"), ("attempts", .count h.iteration)]
    Act.change restartCount
    return some none
  match ← onHeuristic drawCandidate with
  | .yield => return none
  | .empty => return none
  | .candidate _ (.lazy c) => return some (some (.lazy c .nonWorsening))
  | .candidate index (.eager m) =>
    if m.delta ≤ 0 then
      onHeuristic do
        rewardMove index m.delta
        reportAccept "hill_climbing" index m.delta fun _ => []
      return some (some (.move m))
    else
      onHeuristic (Act.change Heuristic.fail)
      return none

/-- Attempts until there is an answer, which is so at the latest when the attempts since the last
new best state reach their limit. -/
def select : Act (HillClimbing G α) M α (Option (Proposal V α)) := do
  let h ← Act.part
  return (← Attempt.firstOf attempt (h.maxIdle + 1)).join

instance [Model M V α] : Strategy (HillClimbing G α) M V α where
  name _ := "hill_climbing"
  init := init
  select := select
  bestSaved h := { h with lastImproving := h.iteration }
  resetScores h := { h with heuristic := h.heuristic.resetScores }
  outline h := Outline.record "HillClimbing" [
    ("sequence", h.heuristic.sequence.outline), ("chain", h.heuristic.chain.outline),
    ("max_idle", toString h.maxIdle), ("iteration", toString h.iteration),
    ("last_improving", toString h.lastImproving)]

end HillClimbing

end LocalSearch
