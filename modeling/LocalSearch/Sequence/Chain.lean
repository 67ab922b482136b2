import LocalSearch.Sequence.Basic
/-!
# Chains

The selectors used since the last end of a chain, with a count of failures.

* `Chain`: the selectors, the oldest first. A chain is dropped after a number of failures in a row.
* `Heuristic`: a sequence with the chain in progress, which is what an acceptance strategy draws
  from.
* `Heuristic.improve`: records an accepted move that does not make things worse and learns from it.
-/

namespace LocalSearch

/-- The selectors used since the last end of a chain. -/
structure Chain where
  selectors : List Nat
  /-- Failures since the last success. -/
  failures : Nat
  /-- The number of failures that drops the chain. -/
  resetInterval : Nat
deriving Repr, DecidableEq

namespace Chain

/-- An empty chain dropped after a number of failures, at least one. -/
def of (resetInterval : Nat) : Chain := ⟨[], 0, max resetInterval 1⟩

/-- Drops the chain. -/
def clear (c : Chain) : Chain :=
  { c with selectors := [], failures := 0 }

/-- The row of the transition table for the chain. -/
def previousRow (c : Chain) : Nat :=
  Sequence.rowOf c.selectors

/-- Records an accepted move that makes things worse. -/
def succeed (c : Chain) : Chain :=
  { c with failures := 0 }

/-- Records a missing or refused candidate. -/
def fail (c : Chain) : Chain :=
  if c.resetInterval ≤ c.failures + 1 then c.clear else { c with failures := c.failures + 1 }

/-- Adds a selector, or drops the chain if it ends with the selector. -/
def extend (c : Chain) (selected : Nat) (ended : Bool) : Chain :=
  { c with selectors := if ended then [] else c.selectors ++ [selected], failures := 0 }

def outline (c : Chain) : String :=
  Outline.record "Chain" [
    ("selectors", Outline.list (c.selectors.map toString)), ("failures", toString c.failures),
    ("reset_interval", toString c.resetInterval)]

end Chain

/-- A sequence with the chain in progress. -/
structure Heuristic (G α : Type) where
  sequence : Sequence G α
  chain : Chain

namespace Heuristic

variable {G M V α : Type} [Scalar α]

omit [Scalar α] in
/-- A sequence without a chain. -/
def of (sequence : Sequence G α) : Heuristic G α :=
  ⟨sequence, .of sequence.config.resetInterval⟩

omit [Scalar α] in
/-- Drops the chain. -/
def clear (h : Heuristic G α) : Heuristic G α :=
  { h with chain := h.chain.clear }

omit [Scalar α] in
/-- Records a missing or refused candidate. -/
def fail (h : Heuristic G α) : Heuristic G α :=
  { h with chain := h.chain.fail }

omit [Scalar α] in
/-- Records an accepted move that makes things worse. -/
def succeed (h : Heuristic G α) : Heuristic G α :=
  { h with chain := h.chain.succeed }

/-- Records an accepted move of a selector that does not make things worse: the chain grows by the
selector or ends, and the scores learn. -/
def improve (h : Heuristic G α) (method : LearningMethod) (selected : Nat) (delta time : α) :
    Except Fault (Heuristic G α) := do
  let ended := h.sequence.ended
  return { sequence := ← h.sequence.learn method h.chain.previousRow selected ended delta time
           chain := h.chain.extend selected ended }

/-- Learns by the configured rule from an accepted move, for the scores and for the points. -/
def reward (h : Heuristic G α) (selected : Nat) (delta time : α) :
    Except Fault (Heuristic G α) := do
  let h ← h.improve h.sequence.config.learningMethod selected delta time
  return { h with sequence := h.sequence.updatePoints selected (-delta) }

omit [Scalar α] in
/-- The name of a selector. -/
def selectorName (h : Heuristic G α) (index : Nat) : String :=
  (h.sequence.selectors[index]?.map Selector.name).getD ""

/-- All scores back at one; the chain stays. -/
def resetScores (h : Heuristic G α) : Heuristic G α :=
  { h with sequence := h.sequence.resetScores }

/-- An operation on the sequence. -/
@[inline]
def onSequence {β : Type} (x : Act (Sequence G α) M α β) : Act (Heuristic G α) M α β :=
  Act.within (·.sequence) (fun h sequence => { h with sequence }) x

variable [MoveGenerator G M V α]

/-- Prepares for a search. -/
def init (model : M) : Attempt (Heuristic G α) Unit := do
  Attempt.focus (·.sequence) (fun h sequence => { h with sequence }) (Sequence.init model)
  modify clear

/-- Picks the selector that follows the chain and asks it for a candidate. -/
def draw : Act (Heuristic G α) M α (Nat × Option (Candidate V α)) := do
  let h ← Act.part
  let index ← onSequence (Sequence.pick h.chain.selectors)
  let candidate ← onSequence (Sequence.propose index)
  return (index, candidate)

end Heuristic

end LocalSearch
