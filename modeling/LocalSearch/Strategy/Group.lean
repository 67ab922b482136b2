import LocalSearch.Strategy.Construction
import LocalSearch.Strategy.GreatDeluge
import LocalSearch.Strategy.SimulatedAnnealing
/-!
# Group acceptance

Construction comes first. Then a water level and a temperature vote on every candidate
(`LocalSearch.vote`), which in effect asks both to agree; without a temperature the water level
decides alone.

An accepted move advances both schedules. If that takes the solution back to its best state, the
move no longer fits: it is dropped, and another candidate is drawn.
-/

namespace LocalSearch

/-- Group acceptance over a heuristic sequence. -/
structure Group (G α : Type) where
  construction : Construction α
  /-- Construction has nothing left to do. -/
  constructed : Bool
  heuristic : Heuristic G α
  deluge : DelugeSchedule α
  annealing : Option (AnnealingSchedule α)

namespace Group

variable {G M V α : Type} [Scalar α]

omit [Scalar α] in
/-- A strategy before a search. -/
def of (construction : Construction α) (sequence : Sequence G α) (deluge : DelugeSchedule α)
    (annealing : Option (AnnealingSchedule α)) : Group G α :=
  { construction, constructed := false, heuristic := .of sequence, deluge, annealing }

/-- An operation on the heuristic. -/
@[inline]
def onHeuristic {β : Type} (x : Act (Heuristic G α) M α β) : Act (Group G α) M α β :=
  Act.within (·.heuristic) (fun g heuristic => { g with heuristic }) x

/-- An operation on the construction phase. -/
@[inline]
def onConstruction {β : Type} (x : Act (Construction α) M α β) : Act (Group G α) M α β :=
  Act.within (·.construction) (fun g construction => { g with construction }) x

/-- An operation on the temperature, which is there. -/
@[inline]
def onAnnealing {β : Type} (s : AnnealingSchedule α) (x : Act (AnnealingSchedule α) M α β) :
    Act (Group G α) M α β :=
  Act.within (fun _ => s) (fun g s => { g with annealing := some s }) x

/-- Advances the water level. -/
def advanceDeluge (reference : α) : Act (Group G α) M α Unit := do
  let _ ← Act.within (·.deluge) (fun g deluge => { g with deluge })
    (DelugeSchedule.step reference)

variable [MoveGenerator G M V α] [Model M V α]

/-- Prepares for a search. -/
def init : Act (Group G α) M α Unit := do
  onConstruction (Strategy.init (V := V))
  let model := (← Act.solution).model
  onHeuristic (Act.onPart (Heuristic.init model))
  Act.change fun g => { g with constructed := false, deluge := g.deluge.reset }
  if let some s := (← Act.part).annealing then
    onAnnealing s (AnnealingSchedule.start (← Model.totalDomainSize model))

omit [MoveGenerator G M V α] in
/-- Decides on a move by the water level alone. An accepted move that does not make things worse
counts one in the scores. -/
def decideByDeluge (index : Nat) (delta total reference : α) : Act (Group G α) M α Bool := do
  if !(← Act.part).deluge.accepts total delta then return false
  if delta ≤ 0 then
    let time := (← Act.solution).time
    onHeuristic (Act.onPart (Attempt.update fun h => h.improve .count index delta time))
  advanceDeluge reference
  return true

/-- How the vote on a move ended. -/
inductive Decision
  | accepted
  | refused
  /-- Accepted, but the solution went back to its best state. -/
  | dropped
deriving Repr, DecidableEq

omit [MoveGenerator G M V α] in
/-- Lets the water level and a temperature vote on a move. -/
def decideByVote (s : AnnealingSchedule α) (delta total reference : α) :
    Act (Group G α) M α Decision := do
  let (g, w) ← get
  let (judged, random) := s.judge total reference delta w.random
  set (g, { w with random })
  if !vote α (g.deluge.accepts total delta) judged then return .refused
  let turn ← onAnnealing s AnnealingSchedule.step
  advanceDeluge reference
  if turn.restored then return .dropped
  Act.change fun g => { g with annealing := g.annealing.map (·.record delta) }
  return .accepted

omit [MoveGenerator G M V α] in
/-- Decides on a move. -/
def decide (index : Nat) (delta reference : α) : Act (Group G α) M α Decision := do
  let total ← Model.totalValue (← Act.solution).model
  match (← Act.part).annealing with
  | some s => decideByVote s delta total reference
  | none => return if ← decideByDeluge index delta total reference then .accepted else .refused

/-- The rule for a lazy change: the vote as the schedules are now. -/
def criterion (reference : α) : Act (Group G α) M α (Criterion α) := do
  let (g, w) ← get
  let (seed, random) := w.random.next64
  set (g, { w with random })
  return .group g.deluge.bound
    (g.annealing.map fun s => ⟨s.acceptance, s.config.relative, .quick seed⟩) reference

/-- One draw with the vote on it: a proposal or no answer yet. -/
def attempt (reference : α) : Act (Group G α) M α (Option (Proposal V α)) := do
  match ← onHeuristic drawCandidate with
  | .yield => return none
  | .empty => return none
  | .candidate _ (.lazy c) => return some (.lazy c (← criterion reference))
  | .candidate index (.eager m) =>
    match ← decide index m.delta reference with
    | .dropped => return none
    | .refused =>
      onHeuristic (Act.change Heuristic.fail)
      return none
    | .accepted =>
      onHeuristic (reportAccept "group" index m.delta fun _ => [])
      return some (.move m)

/-- Draws until a candidate is accepted or there were too many. -/
def selectByVote : Act (Group G α) M α (Option (Proposal V α)) := do
  let reference ← (← Act.solution).referenceValue
  if (← Act.part).deluge.bound.isNone then advanceDeluge reference
  Attempt.firstOf (attempt reference) maxAttempts

/-- The next proposal: of construction until it offers nothing, and of the vote from then on. -/
def select : Act (Group G α) M α (Option (Proposal V α)) := do
  if (← Act.part).constructed then selectByVote
  else
    match ← onConstruction Construction.select with
    | some proposal => return some proposal
    | none =>
      Act.change fun g => { g with constructed := true }
      let iteration := (← Act.solution).iteration
      Act.report .debug "phase_switch" fun _ => [
        ("from", .text "construction"), ("to", .text "group"), ("iteration", .count iteration)]
      selectByVote

instance : Strategy (Group G α) M V α where
  name _ := "group"
  init := init
  select := select
  bestSaved g :=
    { g with deluge := g.deluge.bestSaved, annealing := g.annealing.map (·.bestSaved) }
  resetScores g := { g with heuristic := g.heuristic.resetScores }
  outline g := Outline.record "GroupAccept" [
    ("construction", Strategy.outline M g.construction),
    ("constructed", Outline.flag g.constructed),
    ("sequence", g.heuristic.sequence.outline), ("chain", g.heuristic.chain.outline),
    ("deluge", g.deluge.outline),
    ("annealing", Outline.optional AnnealingSchedule.outline g.annealing)]

end Group

end LocalSearch
