import LocalSearch.Schedule.Deluge
import LocalSearch.Strategy.Basic
/-!
# Great deluge

Accepts the candidates that keep the total under a water level (`LocalSearch.Schedule.Deluge`). The
strategy offers nothing on a reheat that hands over, on a reheat without a candidate since the last
one, and after too many draws without an accepted candidate.
-/

namespace LocalSearch

/-- Great deluge over a heuristic sequence. -/
structure GreatDeluge (G α : Type) where
  heuristic : Heuristic G α
  schedule : DelugeSchedule α
  /-- After handing over the bound is computed anew. -/
  alterBoundOnReheat : Bool
  /-- The bound is to be computed anew at the next draw. -/
  alterBound : Bool
  /-- A candidate was proposed since the last reheat. -/
  generatedSinceReheat : Bool

/-- One iteration of a water level that reports a reheat; says whether it was one. -/
def DelugeSchedule.step {M α : Type} [Scalar α] (reference : α) :
    Act (DelugeSchedule α) M α Bool := do
  let (s, reheated) := (← Act.part).advance reference
  Act.change fun _ => s
  if reheated then
    Act.report .debug "reheat" fun _ => [
      ("strategy", .text "great_deluge"), ("bound", .number (s.bound.getD reference)),
      ("idle", .count s.idle), ("iteration", .count s.iteration)]
  return reheated

namespace GreatDeluge

variable {G M V α : Type} [Scalar α]

omit [Scalar α] in
/-- A strategy before a search. -/
def of (sequence : Sequence G α) (schedule : DelugeSchedule α) (alterBoundOnReheat : Bool) :
    GreatDeluge G α :=
  { heuristic := .of sequence, schedule, alterBoundOnReheat, alterBound := false,
    generatedSinceReheat := false }

/-- An operation on the heuristic. -/
@[inline]
def onHeuristic {β : Type} (x : Act (Heuristic G α) M α β) : Act (GreatDeluge G α) M α β :=
  Act.within (·.heuristic) (fun d heuristic => { d with heuristic }) x

/-- An operation on the schedule. -/
@[inline]
def onSchedule {β : Type} (x : Act (DelugeSchedule α) M α β) : Act (GreatDeluge G α) M α β :=
  Act.within (·.schedule) (fun d schedule => { d with schedule }) x

variable [MoveGenerator G M V α] [Model M V α]

omit [Model M V α] in
/-- Prepares for a search. -/
def init : Act (GreatDeluge G α) M α Unit := do
  let model := (← Act.solution).model
  onHeuristic (Act.onPart (Heuristic.init model))
  Act.change fun d =>
    { d with schedule := d.schedule.reset, alterBound := false, generatedSinceReheat := false }

/-- Advances the schedule and draws a candidate. Whether it was a reheat is told by the count of
them. -/
def draw : Act (GreatDeluge G α) M α (Drawn V α) := do
  let reference ← (← Act.solution).referenceValue
  let reheats := (← Act.part).schedule.idle
  let raised ← onSchedule (DelugeSchedule.step reference)
  let d ← Act.part
  let reheated : Bool := reheats < d.schedule.idle
  if raised && d.schedule.nextOnReheat || reheated && !d.generatedSinceReheat then
    Act.change fun d =>
      { d with alterBound := d.alterBoundOnReheat, generatedSinceReheat := false }
    return .yield
  if reheated then
    Act.change fun d => { d with generatedSinceReheat := false }
  if d.alterBound then
    Act.change fun d => { d with schedule := d.schedule.alterBound reference, alterBound := false }
  match ← onHeuristic drawCandidate with
  | .candidate index c =>
    Act.change fun d => { d with generatedSinceReheat := true }
    return .candidate index c
  | drawn => return drawn

/-- One attempt: a proposal, an offer of nothing, or no answer yet. -/
def attempt : Act (GreatDeluge G α) M α (Option (Option (Proposal V α))) := do
  match ← draw with
  | .yield => return some none
  | .empty => return none
  | .candidate _ (.lazy c) =>
    return some (some (.lazy c (.underBound (← Act.part).schedule.bound)))
  | .candidate index (.eager m) =>
    let total ← Model.totalValue (← Act.solution).model
    if (← Act.part).schedule.accepts total m.delta then
      if m.delta ≤ 0 then
        Act.change fun d =>
          if d.schedule.coolInAccept then { d with schedule := d.schedule.cool } else d
        onHeuristic (rewardMove index m.delta)
      else
        onHeuristic (Act.change Heuristic.succeed)
      let bound := (← Act.part).schedule.bound
      onHeuristic (reportAccept "great_deluge" index m.delta fun _ => [
        ("bound", .outlined (Outline.optional Scalar.outline bound))])
      return some (some (.move m))
    else
      onHeuristic (Act.change Heuristic.fail)
      return none

/-- Attempts until there is an answer or there were too many. -/
def select : Act (GreatDeluge G α) M α (Option (Proposal V α)) := do
  match ← Attempt.firstOf attempt maxAttempts with
  | some answer => return answer
  | none =>
    let d ← Act.part
    Act.report .debug "idle" fun _ => [
      ("strategy", .text "great_deluge"), ("attempts", .count maxAttempts),
      ("bound", .outlined (Outline.optional Scalar.outline d.schedule.bound))]
    return none

instance : Strategy (GreatDeluge G α) M V α where
  name _ := "great_deluge"
  init := init
  select := select
  bestSaved d := { d with schedule := d.schedule.bestSaved }
  resetScores d := { d with heuristic := d.heuristic.resetScores }
  outline d := Outline.record "GreatDeluge" [
    ("sequence", d.heuristic.sequence.outline), ("chain", d.heuristic.chain.outline),
    ("schedule", d.schedule.outline),
    ("alter_bound_on_reheat", Outline.flag d.alterBoundOnReheat)]

end GreatDeluge

end LocalSearch
