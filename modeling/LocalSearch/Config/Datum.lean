import LocalSearch.Config.Search
import LocalSearch.Datum.Basic
/-!
# Settings as structured data

Reading and writing settings as structured data: `ofDatum?` and `toDatum`, for each record of
settings.

A record of settings is read from a record by the names of its fields, or from a list by their
order. What is missing takes its standard value, and fields with other names are passed over. A
value of the wrong kind, or a list with too many items, cannot be read. What is read need not be
valid.
-/

namespace LocalSearch

open Datum

variable {α : Type}

/-! ## Durations -/

/-- Reads a duration, given by `secs` and `nanos` without anything else, of fewer than `2 ^ 64`
seconds. -/
def Duration.ofDatum? (d : Datum α) : Option Duration := do
  if let .record fields := d then
    if fields.any fun (name, _) => name != "secs" && name != "nanos" then none
  let [some seconds, some nanoseconds] ← d.fields? ["secs", "nanos"] | none
  let total := (Duration.ofSeconds (← count? seconds)).nanoseconds +
    (← natural? UInt32.size nanoseconds)
  if total < (Duration.ofSeconds UInt64.size).nanoseconds then some ⟨total⟩ else none

def Duration.toDatum (d : Duration) : Datum α :=
  record [("secs", ofNat d.seconds), ("nanos", ofNat d.subseconds)]

/-! ## Settings -/

/-- The names of the selection types. -/
def selectionTypes : List (String × SelectionType) :=
  [("restricted_roulette", .restrictedRoulette), ("unrestricted", .unrestricted),
    ("restricted_tournament", .restrictedTournament)]

/-- The names of the learning methods. -/
def learningMethods : List (String × LearningMethod) :=
  [("count", .count), ("time_weighted", .timeWeighted), ("delta", .delta)]

def SelectionType.toDatum (t : SelectionType) : Datum α :=
  text (match t with
    | restrictedRoulette => "restricted_roulette"
    | unrestricted => "unrestricted"
    | restrictedTournament => "restricted_tournament")

def LearningMethod.toDatum (m : LearningMethod) : Datum α :=
  text (match m with
    | count => "count"
    | timeWeighted => "time_weighted"
    | delta => "delta")

def GeneralConfig.ofDatum? (d : Datum α) : Option GeneralConfig := do
  let [seed, unassigned, cool] ←
    d.fields? ["seed", "save_best_unassigned", "cool_in_accept"] | none
  return {
    seed := ← readOr none (optional? count?) seed
    saveBestUnassigned := ← readOr 0 integer? unassigned
    coolInAccept := ← readOr false flag? cool }

def GeneralConfig.toDatum (c : GeneralConfig) : Datum α :=
  record [("seed", ofOptional ofNat c.seed),
    ("save_best_unassigned", integer c.saveBestUnassigned),
    ("cool_in_accept", flag c.coolInAccept)]

def SequenceConfig.ofDatum? (d : Datum α) : Option SequenceConfig := do
  let standard : SequenceConfig := {}
  let [chaining, selection, learning, reset] ← d.fields?
    ["sequence", "selection_type", "learning_method", "max_sequence_reset_iter"] | none
  return {
    sequence := ← readOr standard.sequence flag? chaining
    selectionType := ← readOr standard.selectionType (choice? selectionTypes) selection
    learningMethod := ← readOr standard.learningMethod (choice? learningMethods) learning
    maxResetIterations := ← readOr standard.maxResetIterations integer? reset }

def SequenceConfig.toDatum (c : SequenceConfig) : Datum α :=
  record [("sequence", flag c.sequence), ("selection_type", c.selectionType.toDatum),
    ("learning_method", c.learningMethod.toDatum),
    ("max_sequence_reset_iter", integer c.maxResetIterations)]

def HillClimberConfig.ofDatum? (d : Datum α) : Option HillClimberConfig := do
  let standard : HillClimberConfig := {}
  let [idle, neighbours, random, update] ←
    d.fields? ["max_idle", "neighbours", "random", "update"] | none
  return {
    maxIdle := ← readOr standard.maxIdle count? idle
    neighbours := ← readOr none (optional? text?) neighbours
    random := ← readOr standard.random flag? random
    update := ← readOr standard.update flag? update }

def HillClimberConfig.toDatum (c : HillClimberConfig) : Datum α :=
  record [("max_idle", ofNat c.maxIdle), ("neighbours", ofOptional text c.neighbours),
    ("random", flag c.random), ("update", flag c.update)]

def SearchConfig.ofDatum? (d : Datum α) : Option SearchConfig := do
  let standard : SearchConfig := {}
  let [strategy, hillClimbing, deluge, annealing, restart, next, alter] ← d.fields?
    ["strategy", "hc_rank", "gd_rank", "sa_rank", "restart_limit", "next_heuristics_on_reheat",
      "alter_bound_on_reheat"] | none
  return {
    strategy := ← readOr standard.strategy text? strategy
    hillClimbingRank := ← readOr standard.hillClimbingRank integer? hillClimbing
    delugeRank := ← readOr standard.delugeRank integer? deluge
    annealingRank := ← readOr standard.annealingRank integer? annealing
    restartLimit := ← readOr standard.restartLimit count? restart
    nextOnReheat := ← readOr standard.nextOnReheat flag? next
    alterBoundOnReheat := ← readOr standard.alterBoundOnReheat flag? alter }

def SearchConfig.toDatum (c : SearchConfig) : Datum α :=
  record [("strategy", text c.strategy), ("hc_rank", integer c.hillClimbingRank),
    ("gd_rank", integer c.delugeRank), ("sa_rank", integer c.annealingRank),
    ("restart_limit", ofNat c.restartLimit), ("next_heuristics_on_reheat", flag c.nextOnReheat),
    ("alter_bound_on_reheat", flag c.alterBoundOnReheat)]

def TerminationConfig.ofDatum? (d : Datum α) : Option TerminationConfig := do
  let [complete, iterations, timeout] ←
    d.fields? ["stop_when_complete", "max_iters", "timeout"] | none
  return {
    stopWhenComplete := ← readOr false flag? complete
    maxIters := ← readOr none (optional? count?) iterations
    timeout := ← readOr none (optional? Duration.ofDatum?) timeout }

def TerminationConfig.toDatum (c : TerminationConfig) : Datum α :=
  record [("stop_when_complete", flag c.stopWhenComplete),
    ("max_iters", ofOptional ofNat c.maxIters),
    ("timeout", ofOptional Duration.toDatum c.timeout)]

variable [Scalar α]

def DelugeConfig.ofDatum? (d : Datum α) : Option (DelugeConfig α) := do
  let standard : DelugeConfig α := .standard
  let [cool, upper, lower, neighbours] ←
    d.fields? ["cool_rate", "upper_bound_rate", "lower_bound_rate", "neighbours"] | none
  return {
    coolRate := ← readOr standard.coolRate number? cool
    upperBoundRate := ← readOr standard.upperBoundRate number? upper
    lowerBoundRate := ← readOr standard.lowerBoundRate number? lower
    neighbours := ← readOr none (optional? text?) neighbours }

omit [Scalar α] in
def DelugeConfig.toDatum (c : DelugeConfig α) : Datum α :=
  record [("cool_rate", number c.coolRate), ("upper_bound_rate", number c.upperBoundRate),
    ("lower_bound_rate", number c.lowerBoundRate), ("neighbours", ofOptional text c.neighbours)]

def AnnealingConfig.ofDatum? (d : Datum α) : Option (AnnealingConfig α) := do
  let standard : AnnealingConfig α := .standard
  let [temperature, cooling, reheat, length, reheatLength, restore, stochastic, relative,
    neighbours] ← d.fields?
      ["initial_temperature", "cooling_rate", "reheat_rate", "temp_length_coef",
        "reheat_length_coef", "restore_best_length_coef", "stochastic_hc", "relative_acceptance",
        "neighbours"] | none
  return {
    initialTemperature := ← readOr standard.initialTemperature number? temperature
    coolingRate := ← readOr standard.coolingRate number? cooling
    reheatRate := ← readOr none (optional? number?) reheat
    tempLengthCoef := ← readOr standard.tempLengthCoef number? length
    reheatLengthCoef := ← readOr standard.reheatLengthCoef number? reheatLength
    restoreBestLengthCoef := ← readOr none (optional? number?) restore
    stochastic := ← readOr standard.stochastic flag? stochastic
    relative := ← readOr standard.relative flag? relative
    neighbours := ← readOr none (optional? text?) neighbours }

omit [Scalar α] in
def AnnealingConfig.toDatum (c : AnnealingConfig α) : Datum α :=
  record [("initial_temperature", number c.initialTemperature),
    ("cooling_rate", number c.coolingRate), ("reheat_rate", ofOptional number c.reheatRate),
    ("temp_length_coef", number c.tempLengthCoef),
    ("reheat_length_coef", number c.reheatLengthCoef),
    ("restore_best_length_coef", ofOptional number c.restoreBestLengthCoef),
    ("stochastic_hc", flag c.stochastic), ("relative_acceptance", flag c.relative),
    ("neighbours", ofOptional text c.neighbours)]

def ConstructionConfig.ofDatum? (d : Datum α) : Option (ConstructionConfig α) := do
  let standard : ConstructionConfig α := .standard
  let [tabu, conflict, value] ←
    d.fields? ["tabu_size", "conflict_weight", "value_weight"] | none
  return {
    tabuSize := ← readOr standard.tabuSize count? tabu
    conflictWeight := ← readOr standard.conflictWeight number? conflict
    valueWeight := ← readOr standard.valueWeight number? value }

omit [Scalar α] in
def ConstructionConfig.toDatum (c : ConstructionConfig α) : Datum α :=
  record [("tabu_size", ofNat c.tabuSize), ("conflict_weight", number c.conflictWeight),
    ("value_weight", number c.valueWeight)]

def SolverConfig.ofDatum? (d : Datum α) : Option (SolverConfig α) := do
  let standard : SolverConfig α := .standard
  let [general, chaining, hillClimber, deluge, annealing, search, construction, termination] ←
    d.fields? ["general", "sequence", "hill_climber", "great_deluge", "simulated_annealing",
      "search", "construction", "termination"] | none
  return {
    general := ← readOr standard.general GeneralConfig.ofDatum? general
    sequence := ← readOr standard.sequence SequenceConfig.ofDatum? chaining
    hillClimber := ← readOr standard.hillClimber HillClimberConfig.ofDatum? hillClimber
    deluge := ← readOr standard.deluge DelugeConfig.ofDatum? deluge
    annealing := ← readOr standard.annealing AnnealingConfig.ofDatum? annealing
    search := ← readOr standard.search SearchConfig.ofDatum? search
    construction := ← readOr standard.construction ConstructionConfig.ofDatum? construction
    termination := ← readOr standard.termination TerminationConfig.ofDatum? termination }

omit [Scalar α] in
def SolverConfig.toDatum (c : SolverConfig α) : Datum α :=
  record [("general", c.general.toDatum), ("sequence", c.sequence.toDatum),
    ("hill_climber", c.hillClimber.toDatum), ("great_deluge", c.deluge.toDatum),
    ("simulated_annealing", c.annealing.toDatum), ("search", c.search.toDatum),
    ("construction", c.construction.toDatum), ("termination", c.termination.toDatum)]

end LocalSearch
