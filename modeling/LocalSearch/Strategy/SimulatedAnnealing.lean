import LocalSearch.Schedule.Annealing
import LocalSearch.Strategy.Basic
/-!
# Simulated annealing

Accepts candidates that make things worse with a probability that falls with the temperature
(`LocalSearch.Schedule.Annealing`). The strategy offers nothing on a reheat that hands over, on a
reheat without a candidate since the last one, and after too many draws without an accepted
candidate.
-/

namespace LocalSearch

/-- Simulated annealing over a heuristic sequence. -/
structure SimulatedAnnealing (G α : Type) where
  heuristic : Heuristic G α
  schedule : AnnealingSchedule α
  /-- A candidate was proposed since the last reheat. -/
  generatedSinceReheat : Bool

namespace AnnealingSchedule

variable {M V α : Type} [Scalar α]

/-- The start of a search, reported. -/
def start (domainSize : Nat) : Act (AnnealingSchedule α) M α Unit := do
  Act.change (init · domainSize)
  let s ← Act.part
  Act.report .debug "annealing_init" fun _ => [
    ("temperature", .number s.temperature), ("temperature_length", .count s.temperatureLength),
    ("reheat_length", .count s.reheatLength),
    ("restore_best_length", .count s.restoreBestLength)]

/-- Reports a reheat or a cooling with the counts of the period. -/
def reportPeriod (name : String) (stats : AcceptStats) : Act (AnnealingSchedule α) M α Unit := do
  let s ← Act.part
  Act.report .debug name fun _ => [
    ("strategy", .text "simulated_annealing"), ("temperature", .number s.temperature),
    ("iteration", .count s.iteration), ("improving", .count stats.improving),
    ("zero", .count stats.zero), ("worsening", .count stats.worsening)]

variable [Model M V α]

/-- One iteration, which goes back to the best state when its period is over, and reports what it
did. -/
def step : Act (AnnealingSchedule α) M α AnnealingTurn := do
  let before ← Act.part
  let (s, turn) := before.advance
  Act.change fun _ => s
  if turn.restored then
    Act.onWorld (modify World.restoreBest)
    Act.report .debug "restore_best" fun _ => [
      ("strategy", .text "simulated_annealing"), ("iteration", .count s.iteration)]
  if turn.reheated then reportPeriod "reheat" before.stats
  if turn.cooled then reportPeriod "cool" before.stats
  return turn

end AnnealingSchedule

namespace SimulatedAnnealing

variable {G M V α : Type} [Scalar α]

omit [Scalar α] in
/-- A strategy before a search. -/
def of (sequence : Sequence G α) (schedule : AnnealingSchedule α) : SimulatedAnnealing G α :=
  ⟨.of sequence, schedule, false⟩

/-- An operation on the heuristic. -/
@[inline]
def onHeuristic {β : Type} (x : Act (Heuristic G α) M α β) : Act (SimulatedAnnealing G α) M α β :=
  Act.within (·.heuristic) (fun a heuristic => { a with heuristic }) x

/-- An operation on the schedule. -/
@[inline]
def onSchedule {β : Type} (x : Act (AnnealingSchedule α) M α β) :
    Act (SimulatedAnnealing G α) M α β :=
  Act.within (·.schedule) (fun a schedule => { a with schedule }) x

variable [MoveGenerator G M V α] [Model M V α]

/-- Prepares for a search. -/
def init : Act (SimulatedAnnealing G α) M α Unit := do
  let model := (← Act.solution).model
  onHeuristic (Act.onPart (Sequence.init model |> Attempt.focus (·.sequence)
    (fun h sequence => { h with sequence })))
  onSchedule (AnnealingSchedule.start (← Model.totalDomainSize model))
  Act.change fun a => { a with heuristic := a.heuristic.clear, generatedSinceReheat := false }

/-- Advances the schedule and draws a candidate. -/
def draw : Act (SimulatedAnnealing G α) M α (Drawn V α) := do
  let turn ← onSchedule AnnealingSchedule.step
  let a ← Act.part
  if turn.reheated && (a.schedule.nextOnReheat || !a.generatedSinceReheat) then
    Act.change fun a => { a with generatedSinceReheat := false }
    return .yield
  if turn.reheated then
    Act.change fun a => { a with generatedSinceReheat := false }
  match ← onHeuristic drawCandidate with
  | .candidate index c =>
    Act.change fun a => { a with generatedSinceReheat := true }
    return .candidate index c
  | drawn => return drawn

omit [MoveGenerator G M V α] [Model M V α] in
/-- Decides on a move and counts it if it is accepted. -/
def accept (total reference delta : α) : Act (SimulatedAnnealing G α) M α Bool := do
  let (a, w) ← get
  let (accepted, schedule, random) := a.schedule.accept total reference delta w.random
  set ({ a with schedule }, { w with random })
  return accepted

/-- One attempt: a proposal, an offer of nothing, or no answer yet. -/
def attempt : Act (SimulatedAnnealing G α) M α (Option (Option (Proposal V α))) := do
  match ← draw with
  | .yield => return some none
  | .empty => return none
  | .candidate index c =>
    let reference ← (← Act.solution).referenceValue
    match c with
    | .lazy c =>
      let seed ← Act.onWorld (modifyGet fun w =>
        let (seed, random) := w.random.next64
        (seed, { w with random }))
      let s := (← Act.part).schedule
      return some (some (.lazy c (.annealing
        ⟨s.acceptance, s.config.relative, .quick seed⟩ reference)))
    | .eager m =>
      let total ← Model.totalValue (← Act.solution).model
      if ← accept total reference m.delta then
        if m.delta ≤ 0 then onHeuristic (rewardMove index m.delta)
        else onHeuristic (Act.change Heuristic.succeed)
        let temperature := (← Act.part).schedule.temperature
        onHeuristic (reportAccept "simulated_annealing" index m.delta fun _ => [
          ("temperature", .number temperature)])
        return some (some (.move m))
      else
        onHeuristic (Act.change Heuristic.fail)
        return none

/-- Attempts until there is an answer or there were too many. -/
def select : Act (SimulatedAnnealing G α) M α (Option (Proposal V α)) := do
  match ← Attempt.firstOf attempt maxAttempts with
  | some answer => return answer
  | none =>
    let a ← Act.part
    Act.report .debug "idle" fun _ => [
      ("strategy", .text "simulated_annealing"), ("attempts", .count maxAttempts),
      ("temperature", .number a.schedule.temperature)]
    return none

instance : Strategy (SimulatedAnnealing G α) M V α where
  name _ := "simulated_annealing"
  init := init
  select := select
  bestSaved a := { a with schedule := a.schedule.bestSaved }
  resetScores a := { a with heuristic := a.heuristic.resetScores }
  outline a := Outline.record "SimulatedAnnealing" [
    ("sequence", a.heuristic.sequence.outline), ("chain", a.heuristic.chain.outline),
    ("schedule", a.schedule.outline)]

end SimulatedAnnealing

end LocalSearch
