import LocalSearch.Config.Keys
import LocalSearch.Config.Properties
import LocalSearch.Outline
/-!
# Settings of the acceptance strategies and of construction

* `HillClimberConfig`, `DelugeConfig`, `AnnealingConfig`: one record of settings for each acceptance
  strategy.
* `ConstructionConfig`: the settings of the construction phase.
* `DelugeConfig.validate`, `AnnealingConfig.validate`: what settings are refused; the settings read
  from properties have passed.
-/

namespace LocalSearch

variable {α : Type} [Scalar α]

/-- Settings of hill climbing. -/
structure HillClimberConfig where
  /-- Attempts without a new best state before the strategy gives up. -/
  maxIdle : Nat := 100000
  /-- A selector specification. -/
  neighbours : Option String := none
  /-- Pools pick their children uniformly. -/
  random : Bool := false
  /-- Pools learn from what their children propose. -/
  update : Bool := false
deriving Repr, DecidableEq, Inhabited

/-- Reads the settings of hill climbing. -/
def HillClimberConfig.ofProperties (props : Properties) : Except ConfigError HillClimberConfig := do
  return {
    maxIdle := ← props.count Key.hillClimberMaxIdle 100000
    neighbours := props.get? Key.hillClimberNeighbours
    random := ← props.flag Key.hillClimberRandom false
    update := ← props.flag Key.hillClimberUpdate false }

/-- Settings of the great deluge. -/
structure DelugeConfig (α : Type) where
  coolRate : α
  upperBoundRate : α
  lowerBoundRate : α
  /-- A selector specification. -/
  neighbours : Option String

namespace DelugeConfig

/-- The settings when nothing is said. -/
def standard : DelugeConfig α := ⟨0.9999995, 1.05, 0.97, none⟩

/-- Refuses a cool rate outside `(0, 1]` and bound rates that are not `0 < lower ≤ upper`. -/
def validate (c : DelugeConfig α) : Except ConfigError Unit :=
  if ¬((0 : α) < c.coolRate ∧ c.coolRate ≤ 1) then
    .error (.invalid (Key.delugeCoolRate ++ " must be in (0, 1], got " ++
      Scalar.display c.coolRate))
  else if ¬((0 : α) < c.lowerBoundRate ∧ c.lowerBoundRate ≤ c.upperBoundRate) then
    .error (.invalid ("bound rates must satisfy 0 < lower <= upper, got lower " ++
      Scalar.display c.lowerBoundRate ++ " upper " ++ Scalar.display c.upperBoundRate))
  else .ok ()

/-- The cool rate. It may be given by its inverse distance from one, which comes first. -/
def readCoolRate (props : Properties) : Except ConfigError α := do
  match ← props.number? Key.delugeCoolRateInv with
  | some (inv : α) =>
    if (1 : α) ≤ inv then return 1 - 1 / inv
    else
      throw (.invalid (Key.delugeCoolRateInv ++ " must be at least 1, got " ++ Scalar.display inv))
  | none => props.number Key.delugeCoolRate 0.9999995

/-- Reads the settings. Without selectors of its own the great deluge uses those of the hill
climber. -/
def ofProperties (props : Properties) : Except ConfigError (DelugeConfig α) := do
  let config : DelugeConfig α := {
    coolRate := ← readCoolRate props
    upperBoundRate := ← props.number Key.delugeUpperBoundRate 1.05
    lowerBoundRate := ← props.number Key.delugeLowerBoundRate 0.97
    neighbours := props.get? Key.delugeNeighbours <|> props.get? Key.hillClimberNeighbours }
  config.validate
  return config

end DelugeConfig

/-- Settings of simulated annealing. -/
structure AnnealingConfig (α : Type) where
  initialTemperature : α
  coolingRate : α
  /-- Derived from the cooling rate when absent. -/
  reheatRate : Option α
  tempLengthCoef : α
  reheatLengthCoef : α
  /-- Derived from the reheat coefficient when absent. -/
  restoreBestLengthCoef : Option α
  /-- Accepts with the logistic probability. -/
  stochastic : Bool
  /-- Judges the effect of a move instead of the distance from the best value. -/
  relative : Bool
  /-- A selector specification. -/
  neighbours : Option String

namespace AnnealingConfig

/-- The settings when nothing is said. -/
def standard : AnnealingConfig α := ⟨1.5, 0.95, none, 10.0, 10.0, none, false, true, none⟩

/-- Refuses a temperature that is not positive, a cooling rate outside `(0, 1)` and negative
lengths. -/
def validate (c : AnnealingConfig α) : Except ConfigError Unit :=
  if ¬(0 : α) < c.initialTemperature then
    .error (.invalid (Key.initialTemperature ++ " must be positive, got " ++
      Scalar.display c.initialTemperature))
  else if ¬((0 : α) < c.coolingRate ∧ c.coolingRate < 1) then
    .error (.invalid (Key.coolingRate ++ " must be in (0, 1), got " ++
      Scalar.display c.coolingRate))
  else if c.tempLengthCoef < 0 ∨ c.reheatLengthCoef < 0 then
    .error (.invalid "simulated annealing length coefficients must not be negative")
  else .ok ()

/-- The value of a key if it is not negative; a negative one stands for a derived value. -/
def derivable (props : Properties) (key : String) : Except ConfigError (Option α) := do
  return (← props.number? key).filter fun x => (0 : α) ≤ x

/-- Reads the settings. Without selectors of its own simulated annealing uses those of the hill
climber. -/
def ofProperties (props : Properties) : Except ConfigError (AnnealingConfig α) := do
  let config : AnnealingConfig α := {
    initialTemperature := ← props.number Key.initialTemperature 1.5
    coolingRate := ← props.number Key.coolingRate 0.95
    reheatRate := ← derivable props Key.reheatRate
    tempLengthCoef := ← props.number Key.tempLengthCoef 10.0
    reheatLengthCoef := ← props.number Key.reheatLengthCoef 10.0
    restoreBestLengthCoef := ← derivable props Key.restoreBestLengthCoef
    stochastic := ← props.flag Key.stochasticHillClimbing false
    relative := ← props.flag Key.relativeAcceptance true
    neighbours := props.get? Key.annealingNeighbours <|> props.get? Key.hillClimberNeighbours }
  config.validate
  return config

/-- The factor of a reheat: as configured, or what undoes 1.7 times as many coolings as the reheat
coefficient says. -/
def effectiveReheatRate (c : AnnealingConfig α) : α :=
  match c.reheatRate with
  | some rate => rate
  | none => Scalar.pow (1 / c.coolingRate) (c.reheatLengthCoef * 1.7)

/-- The restore coefficient: as configured, or the square of the reheat coefficient. -/
def effectiveRestoreCoef (c : AnnealingConfig α) : α :=
  match c.restoreBestLengthCoef with
  | some coef => coef
  | none => c.reheatLengthCoef * c.reheatLengthCoef

end AnnealingConfig

/-- Settings of the construction phase. -/
structure ConstructionConfig (α : Type) where
  /-- How many recent choices are tabu. -/
  tabuSize : Nat
  /-- The weight of each displaced variable. -/
  conflictWeight : α
  /-- The weight of the change of the total value. -/
  valueWeight : α

namespace ConstructionConfig

/-- The settings when nothing is said. -/
def standard : ConstructionConfig α := ⟨20, 1.0, 1.0⟩

/-- Reads the settings. -/
def ofProperties (props : Properties) : Except ConfigError (ConstructionConfig α) := do
  return {
    tabuSize := ← props.count Key.tabuSize 20
    conflictWeight := ← props.number Key.conflictWeight 1.0
    valueWeight := ← props.number Key.valueWeight 1.0 }

end ConstructionConfig

/-! ## Outlines -/

/-- A specification or its absence in one line. -/
def outlineNeighbours (neighbours : Option String) : String :=
  Outline.optional Text.quoted neighbours

def DelugeConfig.outline (c : DelugeConfig α) : String :=
  Outline.record "GreatDelugeConfig" [
    ("cool_rate", Scalar.outline c.coolRate),
    ("upper_bound_rate", Scalar.outline c.upperBoundRate),
    ("lower_bound_rate", Scalar.outline c.lowerBoundRate),
    ("neighbours", outlineNeighbours c.neighbours)]

def AnnealingConfig.outline (c : AnnealingConfig α) : String :=
  Outline.record "SimulatedAnnealingConfig" [
    ("initial_temperature", Scalar.outline c.initialTemperature),
    ("cooling_rate", Scalar.outline c.coolingRate),
    ("reheat_rate", Outline.optional Scalar.outline c.reheatRate),
    ("temp_length_coef", Scalar.outline c.tempLengthCoef),
    ("reheat_length_coef", Scalar.outline c.reheatLengthCoef),
    ("restore_best_length_coef", Outline.optional Scalar.outline c.restoreBestLengthCoef),
    ("stochastic_hc", Outline.flag c.stochastic),
    ("relative_acceptance", Outline.flag c.relative),
    ("neighbours", outlineNeighbours c.neighbours)]

def ConstructionConfig.outline (c : ConstructionConfig α) : String :=
  Outline.record "ConstructionConfig" [
    ("tabu_size", toString c.tabuSize),
    ("conflict_weight", Scalar.outline c.conflictWeight),
    ("value_weight", Scalar.outline c.valueWeight)]

end LocalSearch
