import LocalSearch.Config.Keys
import LocalSearch.Config.Properties
import LocalSearch.Outline
/-!
# Settings of heuristic sequences

How the next selector of a chain is picked and how chains are learned from.
-/

namespace LocalSearch

/-- How the next selector of a chain is picked. -/
inductive SelectionType
  /-- A roulette wheel over the selectors that are not in the chain. -/
  | restrictedRoulette
  /-- A tournament of two out of all selectors. -/
  | unrestricted
  /-- A tournament of two out of the selectors that are not in the chain. -/
  | restrictedTournament
deriving Repr, DecidableEq, Inhabited

namespace SelectionType

/-- The selection type of a number; every number has one. -/
def ofCode (code : Int) : SelectionType :=
  if code = 0 then restrictedRoulette
  else if code = 1 then unrestricted
  else restrictedTournament

/-- Whether a selector may follow again within one chain. -/
def allowsRepeats (t : SelectionType) : Bool :=
  t == unrestricted

/-- Whether a roulette wheel picks. -/
def usesRoulette (t : SelectionType) : Bool :=
  t == restrictedRoulette

def outline : SelectionType → String
  | restrictedRoulette => "RestrictedRoulette"
  | unrestricted => "Unrestricted"
  | restrictedTournament => "RestrictedTournament"

end SelectionType

/-- By how much an accepted move that does not make things worse raises the scores. -/
inductive LearningMethod
  /-- By one. -/
  | count
  /-- The later, the more. -/
  | timeWeighted
  /-- By the improvement. -/
  | delta
deriving Repr, DecidableEq, Inhabited

namespace LearningMethod

/-- The learning method of a number. -/
def ofCode (code : Int) : Except ConfigError LearningMethod :=
  if code = 0 then .ok count
  else if code = 1 then .ok timeWeighted
  else if code = 2 then .ok delta
  else .error (.invalid (Key.learningMethod ++ " must be 0, 1 or 2, got " ++ toString code))

def outline : LearningMethod → String
  | count => "Count"
  | timeWeighted => "TimeWeighted"
  | delta => "Delta"

end LearningMethod

/-- Settings of a heuristic sequence. -/
structure SequenceConfig where
  /-- Chains may be longer than one selector. -/
  sequence : Bool := true
  selectionType : SelectionType := .unrestricted
  learningMethod : LearningMethod := .delta
  /-- Failures in a row that drop the chain. -/
  maxResetIterations : Int := -1
deriving Repr, DecidableEq, Inhabited

namespace SequenceConfig

/-- Reads the settings. -/
def ofProperties (props : Properties) : Except ConfigError SequenceConfig := do
  return {
    sequence := ← props.flag Key.sequence true
    selectionType := .ofCode (← props.integer Key.selectionType 1)
    learningMethod := ← LearningMethod.ofCode (← props.integer Key.learningMethod 2)
    maxResetIterations := ← props.integer Key.maxSequenceResetIter (-1) }

/-- Failures in a row that drop the chain, at least one. -/
def resetInterval (c : SequenceConfig) : Nat :=
  (max c.maxResetIterations 1).toNat

def outline (c : SequenceConfig) : String :=
  Outline.record "SequenceConfig" [
    ("sequence", Outline.flag c.sequence), ("selection_type", c.selectionType.outline),
    ("learning_method", c.learningMethod.outline),
    ("max_sequence_reset_iter", toString c.maxResetIterations)]

end SequenceConfig

end LocalSearch
