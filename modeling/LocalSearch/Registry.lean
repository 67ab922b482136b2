import LocalSearch.Config.Search
import LocalSearch.Selector.Generators
import LocalSearch.Selector.Pool
import LocalSearch.Selector.Specification
import LocalSearch.Strategy.Kinds
/-!
# The registry

Maps the keys that a configuration uses to generators and strategies, and builds them.

* `Generator`: a basic generator, or a pool of basic ones.
* `Registry`: keys with what they stand for. An application adds generators of its own type `X`.
* `Registry.buildSelectors`: the selectors of a specification.
* `Registry.buildStrategy`: the strategy that the configuration names.

A pool is built from a specification of its own, which must not name a pool again, so building is
nested at most two deep.
-/

namespace LocalSearch

/-- A basic generator, or a pool of basic generators. -/
inductive Generator (X α : Type)
  | basic (g : BasicGenerator X)
  | pool (p : Pool (BasicGenerator X) α)

namespace Generator

variable {X M V α : Type} [Scalar α] [Model M V α] [MoveGenerator X M V α]

instance : MoveGenerator (Generator X α) M V α where
  init model := do
    match ← get with
    | basic g => Attempt.focus (fun _ => g) (fun _ g => basic g) (MoveGenerator.init model)
    | pool p => Attempt.focus (fun _ => p) (fun _ p => pool p) (MoveGenerator.init model)
  propose model := do
    match (← get).1 with
    | basic g =>
      Attempt.focus (fun (_, random) => (g, random)) (fun _ (g, random) => (basic g, random))
        (MoveGenerator.propose model)
    | pool p =>
      Attempt.focus (fun (_, random) => (p, random)) (fun _ (p, random) => (pool p, random))
        (MoveGenerator.propose model)
  setHillClimbing enabled
    | basic g => basic (MoveGenerator.setHillClimbing M enabled g)
    | pool p => pool (MoveGenerator.setHillClimbing M enabled p)
  outline
    | basic g => MoveGenerator.outline M g
    | pool p => MoveGenerator.outline M p

end Generator

/-- What a selector key stands for. -/
inductive Factory (X : Type)
  | change
  | swap
  | lazyChange
  | pool
  /-- A generator of the application, made from the properties. -/
  | custom (make : Properties → Except SearchError X)

/-- What a strategy key stands for. -/
inductive StrategyKind
  | orchestrator
  | group
  | hillClimbing
  | greatDeluge
  | simulatedAnnealing
deriving Repr, DecidableEq

/-- Keys with what they stand for. -/
structure Registry (X : Type) where
  selectors : List (String × Factory X)
  strategies : List (String × StrategyKind)

namespace Registry

variable {X α : Type}

/-- A registry without keys. -/
def empty : Registry X := ⟨[], []⟩

/-- The registry of the built-in generators and strategies. -/
def builtin : Registry X where
  selectors := [("change", .change), ("swap", .swap), ("lazy_change", .lazyChange), ("pool", .pool)]
  strategies := [("orchestrator", .orchestrator), ("group", .group),
    ("hill_climbing", .hillClimbing), ("great_deluge", .greatDeluge),
    ("simulated_annealing", .simulatedAnnealing)]

/-- Binds a key in a list of bindings, replacing what it stood for. -/
def bind {β : Type} (key : String) (value : β) (bindings : List (String × β)) :
    List (String × β) :=
  (key, value) :: bindings.filter (·.1 ≠ key)

/-- Binds a selector key. -/
def addSelector (r : Registry X) (key : String) (factory : Factory X) : Registry X :=
  { r with selectors := bind key factory r.selectors }

/-- Binds a strategy key. -/
def addStrategy (r : Registry X) (key : String) (kind : StrategyKind) : Registry X :=
  { r with strategies := bind key kind r.strategies }

/-- What a selector key stands for. -/
def factory? (r : Registry X) (key : String) : Option (Factory X) :=
  r.selectors.lookup key

/-- What a strategy key stands for. -/
def kind? (r : Registry X) (key : String) : Option StrategyKind :=
  r.strategies.lookup key

/-- The error of a pool that would contain another one. -/
def nestedPool : SearchError :=
  .ofConfig (.invalid (Key.poolNeighbours ++ " must not contain another pool"))

/-- Reports a configuration error as an error of building. -/
def reading {β : Type} (x : Except ConfigError β) : Except SearchError β :=
  x.mapError .ofConfig

/-- Builds a generator that is not a pool. -/
def buildBasic (r : Registry X) (props : Properties) (key : String) :
    Except SearchError (BasicGenerator X) :=
  match r.factory? key with
  | none => .error (.ofConfig (.unknownSelector key))
  | some .change => .ok (.change false)
  | some .swap => .ok (.swap false)
  | some .lazyChange => .ok .lazyChange
  | some .pool => .error nestedPool
  | some (.custom make) => .custom <$> make props

/-- Builds the selectors of a specification in order, the generators with `build`. -/
def buildAll [Scalar α] {G : Type} (build : String → Except SearchError G) (spec : String) :
    Except SearchError (List (Selector G α)) := do
  (← reading (Specification.parse spec)).mapM fun s => do
    return .of s.key (← build s.key) s.bonus

/-- Builds a pool from its own specification. -/
def buildPool [Scalar α] (r : Registry X) (props : Properties) :
    Except SearchError (Pool (BasicGenerator X) α) := do
  let spec ← reading (props.require Key.poolNeighbours)
  let config ← reading (HillClimberConfig.ofProperties props)
  let named : List (Specification α) ← reading (Specification.parse spec)
  if named.any (·.key == "pool") then throw nestedPool
  return ⟨← buildAll (r.buildBasic props) spec, config.random, config.update⟩

/-- Builds the generator of a key. -/
def buildGenerator [Scalar α] (r : Registry X) (props : Properties) (key : String) :
    Except SearchError (Generator X α) :=
  match r.factory? key with
  | some .pool => .pool <$> r.buildPool props
  | _ => .basic <$> r.buildBasic props key

/-- Builds the selectors of a specification in order. -/
def buildSelectors [Scalar α] (r : Registry X) (props : Properties) (spec : String) :
    Except SearchError (List (Selector (Generator X α) α)) :=
  buildAll (r.buildGenerator props) spec

/-! ## Strategies -/

variable [Scalar α]

/-- Builds a sequence from a specification that may be missing. -/
def buildSequence (r : Registry X) (props : Properties) (key : String) (spec : Option String) :
    Except SearchError (Sequence (Generator X α) α) := do
  match spec with
  | none => throw (.ofConfig (.missing key))
  | some spec =>
    let selectors ← r.buildSelectors props spec
    Sequence.of selectors (← reading (SequenceConfig.ofProperties props))

/-- Builds hill climbing. -/
def buildHillClimbing (r : Registry X) (props : Properties) :
    Except SearchError (HillClimbing (Generator X α) α) := do
  let config ← reading (HillClimberConfig.ofProperties props)
  return .of (← r.buildSequence props Key.hillClimberNeighbours config.neighbours) config.maxIdle

/-- Builds the great deluge. -/
def buildGreatDeluge (r : Registry X) (props : Properties) :
    Except SearchError (GreatDeluge (Generator X α) α) := do
  let config : DelugeConfig α ← reading (DelugeConfig.ofProperties props)
  let general ← reading (GeneralConfig.ofProperties props)
  let search ← reading (SearchConfig.ofProperties props)
  let sequence ← r.buildSequence props Key.delugeNeighbours config.neighbours
  return .of sequence (.of config general.coolInAccept search.nextOnReheat)
    search.alterBoundOnReheat

/-- Builds simulated annealing. -/
def buildSimulatedAnnealing (r : Registry X) (props : Properties) :
    Except SearchError (SimulatedAnnealing (Generator X α) α) := do
  let config : AnnealingConfig α ← reading (AnnealingConfig.ofProperties props)
  let search ← reading (SearchConfig.ofProperties props)
  let sequence ← r.buildSequence props Key.annealingNeighbours config.neighbours
  return .of sequence (.of config search.nextOnReheat)

/-- Builds construction. -/
def buildConstruction (props : Properties) : Except SearchError (Construction α) := do
  return .of (← reading (ConstructionConfig.ofProperties props))

/-- Builds group acceptance, in which annealing takes part unless its rank is negative. -/
def buildGroup (r : Registry X) (props : Properties) :
    Except SearchError (Group (Generator X α) α) := do
  let search ← reading (SearchConfig.ofProperties props)
  let general ← reading (GeneralConfig.ofProperties props)
  let config : DelugeConfig α ← reading (DelugeConfig.ofProperties props)
  let sequence ← r.buildSequence props Key.delugeNeighbours config.neighbours
  let annealing : Option (AnnealingSchedule α) ←
    if 0 ≤ search.annealingRank then
      pure (some (.of (← reading (AnnealingConfig.ofProperties props)) false))
    else pure none
  return .of (← buildConstruction props) sequence (.of config general.coolInAccept false) annealing

/-- Builds an orchestrator of the acceptance strategies whose ranks are not negative. -/
def buildOrchestrator (r : Registry X) (props : Properties) :
    Except SearchError (Orchestrator (BasicStrategy (Generator X α) α) α) := do
  let search ← reading (SearchConfig.ofProperties props)
  let hillClimbing ←
    if 0 ≤ search.hillClimbingRank then
      pure [⟨search.hillClimbingRank, .hillClimbing, .hillClimbing (← r.buildHillClimbing props)⟩]
    else pure []
  let greatDeluge ←
    if 0 ≤ search.delugeRank then
      pure [⟨search.delugeRank, .greatDeluge, .greatDeluge (← r.buildGreatDeluge props)⟩]
    else pure []
  let annealing ←
    if 0 ≤ search.annealingRank then
      pure [⟨search.annealingRank, .simulatedAnnealing,
        .simulatedAnnealing (← r.buildSimulatedAnnealing props)⟩]
    else pure []
  Orchestrator.of (← buildConstruction props) (hillClimbing ++ greatDeluge ++ annealing)
    search.restartLimit

/-- Builds a strategy of a kind. -/
def buildKind (r : Registry X) (props : Properties) :
    StrategyKind → Except SearchError (AnyStrategy (Generator X α) α)
  | .orchestrator => .orchestrator <$> r.buildOrchestrator props
  | .group => (.basic <| .group ·) <$> r.buildGroup props
  | .hillClimbing => (.basic <| .hillClimbing ·) <$> r.buildHillClimbing props
  | .greatDeluge => (.basic <| .greatDeluge ·) <$> r.buildGreatDeluge props
  | .simulatedAnnealing => (.basic <| .simulatedAnnealing ·) <$> r.buildSimulatedAnnealing props

/-- Builds the strategy that the configuration names. -/
def buildStrategy (r : Registry X) (props : Properties) :
    Except SearchError (AnyStrategy (Generator X α) α) := do
  let search ← reading (SearchConfig.ofProperties props)
  match r.kind? search.strategy with
  | none => throw (.ofConfig (.unknownSelector search.strategy))
  | some kind => r.buildKind props kind

omit [Scalar α] in
/-- The keys in alphabetical order. -/
def outline (r : Registry X) : String :=
  let keys {β : Type} (bindings : List (String × β)) : String :=
    Outline.list (((bindings.map Prod.fst).mergeSort fun a b => a ≤ b).map Text.quoted)
  Outline.record "SearchRegistry" [("selectors", keys r.selectors), ("strategies", keys r.strategies)]

end Registry

end LocalSearch
