import LocalSearch.Config.Acceptance
import LocalSearch.Schedule.Acceptance
/-!
# The temperature

The temperature of a simulated annealing search. It falls when a cooling period is over and rises
when a reheating period is over; a third period ends in going back to the best state. The periods
are counted in iterations and derived from the total size of the domains.

* `AnnealingSchedule.init`: the start of a search.
* `AnnealingSchedule.advance`: one iteration, with what it did.
* `AnnealingSchedule.judge`, `AnnealingSchedule.accept`: the acceptance rule at the temperature.

Iterations are 64-bit words, so an end of a period beyond the last word wraps around
(`AnnealingSchedule.deadline`).
-/

namespace LocalSearch

/-- How many accepted moves of a cooling period made things better, neither, or worse. -/
structure AcceptStats where
  improving : Nat := 0
  zero : Nat := 0
  worsening : Nat := 0
deriving Repr, DecidableEq, Inhabited

namespace AcceptStats

/-- Counts a move by the sign of its effect. -/
def record {α : Type} [Scalar α] (s : AcceptStats) (delta : α) : AcceptStats :=
  if delta < 0 then { s with improving := s.improving + 1 }
  else if (0 : α) < delta then { s with worsening := s.worsening + 1 }
  else { s with zero := s.zero + 1 }

/-- All counted moves. -/
def total (s : AcceptStats) : Nat :=
  s.improving + s.zero + s.worsening

def outline (s : AcceptStats) : String :=
  Outline.record "AcceptStats" [
    ("improving", toString s.improving), ("zero", toString s.zero),
    ("worsening", toString s.worsening)]

end AcceptStats

/-- The temperature with the periods and their counters. -/
structure AnnealingSchedule (α : Type) where
  config : AnnealingConfig α
  /-- A reheat asks the search to hand over. -/
  nextOnReheat : Bool
  temperature : α
  /-- The factor of a reheat. -/
  reheatRate : α
  temperatureLength : Nat
  reheatLength : Nat
  restoreBestLength : Nat
  iteration : Nat
  /-- The iteration of the last new best state or of the last return to it. -/
  lastImproving : Nat
  lastReheat : Nat
  lastCooling : Nat
  lastRestore : Nat
  stats : AcceptStats

/-- What an iteration of the schedule did. -/
structure AnnealingTurn where
  /-- It asked for the return to the best state. -/
  restored : Bool
  reheated : Bool
  cooled : Bool
deriving Repr, DecidableEq

namespace AnnealingSchedule

variable {α : Type} [Scalar α]

/-- A schedule before a search. -/
def of (config : AnnealingConfig α) (nextOnReheat : Bool) : AnnealingSchedule α :=
  { config, nextOnReheat, temperature := config.initialTemperature
    reheatRate := config.effectiveReheatRate, temperatureLength := 1, reheatLength := 1
    restoreBestLength := 1, iteration := 0, lastImproving := 0, lastReheat := 0
    lastCooling := 0, lastRestore := 0, stats := {} }

/-- A length as a whole number of iterations, at least one. -/
def wholeLength (length : α) : Nat :=
  max (Scalar.toCount length) 1

/-- The start of a search on domains of a total size. -/
def init (s : AnnealingSchedule α) (domainSize : Nat) : AnnealingSchedule α :=
  let temperatureLength := wholeLength (s.config.tempLengthCoef * Scalar.ofNat domainSize)
  let base : α := Scalar.ofNat temperatureLength
  { s with
    temperature := s.config.initialTemperature
    temperatureLength
    reheatLength := wholeLength (s.config.reheatLengthCoef * base)
    restoreBestLength := wholeLength (s.config.effectiveRestoreCoef * base)
    iteration := 0, lastImproving := 0, lastReheat := 0, lastCooling := 0, lastRestore := 0
    stats := {} }

omit [Scalar α] in
/-- Sets the temperature. -/
def setTemperature (s : AnnealingSchedule α) (temperature : α) : AnnealingSchedule α :=
  { s with temperature }

omit [Scalar α] in
/-- Notes a new best state. -/
def bestSaved (s : AnnealingSchedule α) : AnnealingSchedule α :=
  { s with lastImproving := s.iteration }

omit [Scalar α] in
/-- The acceptance rule at the temperature. -/
def acceptance (s : AnnealingSchedule α) : Acceptance α :=
  ⟨s.temperature, s.config.stochastic⟩

/-- The change that the rule judges: that of the move, or the distance of the resulting total from a
reference value. -/
def judgedDelta (s : AnnealingSchedule α) (total reference delta : α) : α :=
  if s.config.relative then delta else total + delta - reference

/-- Decides on a move without counting it. -/
def judge (s : AnnealingSchedule α) (total reference delta : α) (random : Random.Stream) :
    Bool × Random.Stream :=
  s.acceptance.accept (s.judgedDelta total reference delta) random

/-- Counts an accepted move. -/
def record (s : AnnealingSchedule α) (delta : α) : AnnealingSchedule α :=
  { s with stats := s.stats.record delta }

/-- Decides on a move and counts it if it is accepted. -/
def accept (s : AnnealingSchedule α) (total reference delta : α) (random : Random.Stream) :
    Bool × AnnealingSchedule α × Random.Stream :=
  let (accepted, random) := s.judge total reference delta random
  (accepted, if accepted then s.record delta else s, random)

/-- The last iteration of a period, as a 64-bit word. -/
def deadline (start length : Nat) : Nat :=
  (start + length) % UInt64.size

/-- One iteration: first the return to the best state, if its period is over; then a reheat or else
a cooling, if their periods are over. Who calls it has to go back to the best state. -/
def advance (s : AnnealingSchedule α) : AnnealingSchedule α × AnnealingTurn :=
  let s := { s with iteration := s.iteration + 1 }
  let restored := deadline s.lastImproving s.restoreBestLength < s.iteration
  let s := if restored then { s with lastImproving := s.iteration, lastRestore := s.iteration } else s
  if deadline (max s.lastReheat s.lastImproving) s.reheatLength < s.iteration then
    ({ s with temperature := s.temperature * s.reheatRate, lastReheat := s.iteration },
      ⟨restored, true, false⟩)
  else if deadline s.lastCooling s.temperatureLength < s.iteration then
    ({ s with
      temperature := s.temperature * s.config.coolingRate, lastCooling := s.iteration, stats := {} },
      ⟨restored, false, true⟩)
  else (s, ⟨restored, false, false⟩)

omit [Scalar α] in
/-- Whether the last iteration reheated. -/
def justReheated (s : AnnealingSchedule α) : Bool :=
  0 < s.iteration && s.lastReheat == s.iteration

omit [Scalar α] in
/-- Whether the last iteration asked for the return to the best state. -/
def justRestored (s : AnnealingSchedule α) : Bool :=
  0 < s.iteration && s.lastRestore == s.iteration

/-- The schedule in one line. -/
def outline (s : AnnealingSchedule α) : String :=
  Outline.record "AnnealingSchedule" [
    ("config", s.config.outline), ("next_on_reheat", Outline.flag s.nextOnReheat),
    ("temperature", Scalar.outline s.temperature), ("reheat_rate", Scalar.outline s.reheatRate),
    ("temperature_length", toString s.temperatureLength),
    ("reheat_length", toString s.reheatLength),
    ("restore_best_length", toString s.restoreBestLength), ("iteration", toString s.iteration),
    ("last_improving", toString s.lastImproving), ("last_reheat", toString s.lastReheat),
    ("last_cooling", toString s.lastCooling), ("last_restore", toString s.lastRestore),
    ("stats", s.stats.outline)]

end AnnealingSchedule

end LocalSearch
