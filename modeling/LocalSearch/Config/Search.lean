import LocalSearch.Config.Acceptance
import LocalSearch.Config.Duration
import LocalSearch.Config.Sequence
/-!
# Settings of a search

* `GeneralConfig`, `SearchConfig`, `TerminationConfig`: what concerns the search as a whole.
* `SolverConfig`: all settings.

Reading a time limit can fail in two ways: a value that is no number is an error, one that is no
duration is a fault. The reading functions answer with the fault inside the result, since every
error comes first.
-/

namespace LocalSearch

variable {α : Type} [Scalar α]

/-- Settings shared by all parts of a search. -/
structure GeneralConfig where
  seed : Option Nat := none
  /-- How many variables a best state may leave unassigned; negative for any number. -/
  saveBestUnassigned : Int := 0
  /-- The great deluge cools only when it accepts a move that does not make things worse. -/
  coolInAccept : Bool := false
deriving Repr, DecidableEq, Inhabited

namespace GeneralConfig

/-- Reads the settings. -/
def ofProperties (props : Properties) : Except ConfigError GeneralConfig := do
  return {
    seed := ← props.count? Key.seed
    saveBestUnassigned := ← props.integer Key.saveBestUnassigned 0
    coolInAccept := ← props.flag Key.coolInAccept false }

/-- Whether a limit on unassigned variables allows that many. -/
def withinLimit (limit : Int) (unassigned : Nat) : Bool :=
  limit < 0 || (unassigned : Int) ≤ limit

/-- Whether a state with that many unassigned variables may be saved as the best one. -/
def allowsBest (c : GeneralConfig) (unassigned : Nat) : Bool :=
  withinLimit c.saveBestUnassigned unassigned

end GeneralConfig

/-- The choice of a strategy and the order of the phases. -/
structure SearchConfig where
  /-- The registry key of the strategy. -/
  strategy : String := "orchestrator"
  /-- The rank of hill climbing among the acceptance strategies; a negative rank disables it. -/
  hillClimbingRank : Int := 0
  delugeRank : Int := 1
  annealingRank : Int := -1
  /-- Construction calls without progress before a restart. -/
  restartLimit : Nat := 200
  /-- The great deluge and simulated annealing hand over when they reheat. -/
  nextOnReheat : Bool := false
  /-- After handing over the great deluge computes its bound anew. -/
  alterBoundOnReheat : Bool := false
deriving Repr, DecidableEq, Inhabited

namespace SearchConfig

/-- The first rank that occurs again later in a list. -/
def firstShared? : List Int → Option Int
  | [] => none
  | rank :: rest => if rest.contains rank then some rank else firstShared? rest

/-- Refuses settings without an enabled strategy, with two strategies of one rank, or without a
positive restart limit. -/
def validate (c : SearchConfig) : Except ConfigError Unit :=
  let enabled := [c.hillClimbingRank, c.delugeRank, c.annealingRank].filter (0 ≤ ·)
  if enabled.isEmpty then
    .error (.invalid ("at least one of " ++ Key.hillClimbingRank ++ ", " ++ Key.delugeRank ++
      ", " ++ Key.annealingRank ++ " must be non-negative"))
  else
    match firstShared? enabled with
    | some rank => .error (.invalid ("acceptance strategies share rank " ++ toString rank))
    | none =>
      if c.restartLimit = 0 then .error (.invalid (Key.restartLimit ++ " must be positive"))
      else .ok ()

/-- Reads the settings. -/
def ofProperties (props : Properties) : Except ConfigError SearchConfig := do
  let config : SearchConfig := {
    strategy := props.text Key.strategy "orchestrator"
    hillClimbingRank := ← props.integer Key.hillClimbingRank 0
    delugeRank := ← props.integer Key.delugeRank 1
    annealingRank := ← props.integer Key.annealingRank (-1)
    restartLimit := ← props.count Key.restartLimit 200
    nextOnReheat := ← props.flag Key.nextOnReheat false
    alterBoundOnReheat := ← props.flag Key.alterBoundOnReheat false }
  config.validate
  return config

end SearchConfig

/-- When a search ends on its own. -/
structure TerminationConfig where
  /-- As soon as the best state is complete. -/
  stopWhenComplete : Bool := false
  maxIters : Option Nat := none
  timeout : Option Duration := none
deriving Repr, DecidableEq, Inhabited

namespace TerminationConfig

/-- The time limit that a number of seconds stands for; a negative one stands for none. -/
def readTimeout (seconds : α) : Except Fault (Option Duration) :=
  if (0 : α) ≤ seconds then some <$> Duration.ofScalar seconds else .ok none

/-- Reads the settings; `α` is the number type of the time limit. -/
def ofProperties (α : Type) [Scalar α] (props : Properties) :
    Except ConfigError (Except Fault TerminationConfig) := do
  let maxIters ← props.integer Key.maxIters (-1)
  let seconds : α ← props.number Key.timeOut (-1.0)
  let stopWhenComplete ← props.flag Key.stopWhenComplete false
  return (readTimeout seconds).map fun timeout =>
    { stopWhenComplete, maxIters := if 0 ≤ maxIters then some maxIters.toNat else none, timeout }

end TerminationConfig

/-- All settings. -/
structure SolverConfig (α : Type) where
  general : GeneralConfig
  sequence : SequenceConfig
  hillClimber : HillClimberConfig
  deluge : DelugeConfig α
  annealing : AnnealingConfig α
  search : SearchConfig
  construction : ConstructionConfig α
  termination : TerminationConfig

namespace SolverConfig

/-- The settings when nothing is said. -/
def standard : SolverConfig α :=
  { general := {}, sequence := {}, hillClimber := {}, deluge := .standard, annealing := .standard,
    search := {}, construction := .standard, termination := {} }

/-- Reads all settings. -/
def ofProperties (props : Properties) :
    Except ConfigError (Except Fault (SolverConfig α)) := do
  let general ← GeneralConfig.ofProperties props
  let sequence ← SequenceConfig.ofProperties props
  let hillClimber ← HillClimberConfig.ofProperties props
  let deluge ← DelugeConfig.ofProperties props
  let annealing ← AnnealingConfig.ofProperties props
  let search ← SearchConfig.ofProperties props
  let construction ← ConstructionConfig.ofProperties props
  let termination ← TerminationConfig.ofProperties α props
  return termination.map fun termination =>
    { general, sequence, hillClimber, deluge, annealing, search, construction, termination }

end SolverConfig

end LocalSearch
