import LocalSearch.Config.Acceptance
/-!
# The water level

The bound of a great deluge search. It starts at a multiple of a reference value and falls
geometrically; once it is below a floor it is raised again, which is called a reheat.

* `DelugeSchedule.advance`: one iteration.
* `DelugeSchedule.accepts`: whether a move stays under water.

Reheats are counted in a 32-bit word, which wraps around, and an exponent is such a word read with a
sign (`Scalar.signedPower`).
-/

namespace LocalSearch

/-- The water level with its counters. -/
structure DelugeSchedule (α : Type) where
  config : DelugeConfig α
  /-- The bound falls only when the search says so. -/
  coolInAccept : Bool
  /-- A reheat asks the search to hand over. -/
  nextOnReheat : Bool
  /-- Not set before the first iteration. -/
  bound : Option α
  iteration : Nat
  /-- Reheats since the last new best state. -/
  idle : Nat
  /-- The iteration of the last new best state. -/
  lastImproving : Nat

namespace DelugeSchedule

variable {α : Type}

/-- A schedule before its first iteration. -/
def of (config : DelugeConfig α) (coolInAccept nextOnReheat : Bool) : DelugeSchedule α :=
  { config, coolInAccept, nextOnReheat, bound := none, iteration := 0, idle := 0,
    lastImproving := 0 }

/-- Back before the first iteration. -/
def reset (s : DelugeSchedule α) : DelugeSchedule α :=
  { s with bound := none, iteration := 0, idle := 0, lastImproving := 0 }

/-- Sets the bound. -/
def setBound (s : DelugeSchedule α) (bound : α) : DelugeSchedule α :=
  { s with bound := some bound }

/-- Notes a new best state. -/
def bestSaved (s : DelugeSchedule α) : DelugeSchedule α :=
  { s with idle := 0, lastImproving := s.iteration }

variable [Scalar α]

/-- Moves the bound. -/
def shiftBound (s : DelugeSchedule α) (delta : α) : DelugeSchedule α :=
  { s with bound := s.bound.map (· + delta) }

/-- Lets the bound fall by one step. -/
def cool (s : DelugeSchedule α) : DelugeSchedule α :=
  { s with bound := s.bound.map (· * s.config.coolRate) }

/-- The level below which the bound is raised. -/
def floor (s : DelugeSchedule α) (reference : α) : α :=
  Scalar.signedPower s.config.lowerBoundRate (1 + s.idle) * reference

/-- The bound after a number of reheats: a multiple of the reference, but at least two above it. -/
def raised (s : DelugeSchedule α) (reheats : Nat) (reference : α) : α :=
  Scalar.larger (reference + 2) (Scalar.signedPower s.config.upperBoundRate reheats * reference)

/-- One iteration. The first one sets the bound; each later one lets it fall, unless that is left to
the search, and raises it if it is below the floor. Also says whether it was raised. -/
def advance (s : DelugeSchedule α) (reference : α) : DelugeSchedule α × Bool :=
  match s.bound with
  | none =>
    ({ s with
      bound := some (s.config.upperBoundRate * reference), iteration := 0, lastImproving := 0 },
      false)
  | some bound =>
    let bound := if s.coolInAccept then bound else bound * s.config.coolRate
    let s := { s with iteration := s.iteration + 1 }
    if bound < s.floor reference then
      let idle := (s.idle + 1) % UInt32.size
      ({ s with idle, bound := some (s.raised idle reference) }, true)
    else ({ s with bound := some bound }, false)

/-- Raises the bound as after the last reheat, or as after the first one. -/
def alterBound (s : DelugeSchedule α) (reference : α) : DelugeSchedule α :=
  { s with bound := some (s.raised (max s.idle 1) reference) }

/-- Whether a move that changes a total by `delta` stays under water. -/
def accepts (s : DelugeSchedule α) (total delta : α) : Bool :=
  delta ≤ 0 || s.bound.any fun bound => total + delta ≤ bound

/-- The schedule in one line. -/
def outline (s : DelugeSchedule α) : String :=
  Outline.record "DelugeSchedule" [
    ("config", s.config.outline), ("cool_in_accept", Outline.flag s.coolInAccept),
    ("next_on_reheat", Outline.flag s.nextOnReheat),
    ("bound", Outline.optional Scalar.outline s.bound), ("iteration", toString s.iteration),
    ("idle", toString s.idle), ("last_improving", toString s.lastImproving)]

end DelugeSchedule

end LocalSearch
