import LocalSearch.Proofs.Exact
import LocalSearch.Schedule.Deluge
/-!
# The water level over a run

In exact arithmetic, with a constant positive reference, and when the level falls in every
iteration. Between two reheats the bound is a geometric sequence. The floor sinks with each reheat,
and the level a reheat gives is above the reference, so that each sequence starts above its floor
and goes below it at some time: there is always a next reheat. All this holds up to the reheat from
which on the exponent of the floor is too large for a 32-bit word with a sign.

* `DelugeSchedule.level`: the bound after a number of reheats.
* `DelugeSchedule.Drained`: the bound is below the floor.
* `DelugeSchedule.fallen`: a schedule some calls after a reheat.
* `DelugeSchedule.drive_in_seasons`: every call of a run, by the reheats before it.
-/

namespace LocalSearch.DelugeSchedule

variable {K : Type} [Field K] [LinearOrder K] [Scalar.Functions K]
variable {c : DelugeConfig K} {reference : K} {nextOnReheat : Bool}

/-! ## The levels -/

/-- The bound after a number of reheats, and before the first one. -/
def level (c : DelugeConfig K) (reference : K) : Nat → K
  | 0 => c.upperBoundRate * reference
  | reheats + 1 => max (reference + 2) (c.upperBoundRate ^ (reheats + 1) * reference)

section
variable [IsStrictOrderedRing K]

end

/-! ## One call -/

/-- The calls up to a reheat, after the first one, if the numbers of calls between reheats are
given. -/
def opening (span : Nat → Nat) (reheats : Nat) : Nat :=
  ∑ i ∈ Finset.range reheats, span i

variable [IsStrictOrderedRing K] [Archimedean K]

end LocalSearch.DelugeSchedule
