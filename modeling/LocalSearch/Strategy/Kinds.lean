import LocalSearch.Strategy.Group
import LocalSearch.Strategy.HillClimbing
import LocalSearch.Strategy.Orchestrator
/-!
# Kinds of strategies

* `BasicStrategy`: the strategies that do not contain others.
* `AnyStrategy`: these, and an orchestrator of them.

Both are strategies by what they hold.
-/

namespace LocalSearch

/-- A strategy that does not contain others. -/
inductive BasicStrategy (G α : Type)
  | hillClimbing (s : HillClimbing G α)
  | greatDeluge (s : GreatDeluge G α)
  | simulatedAnnealing (s : SimulatedAnnealing G α)
  | group (s : Group G α)
  | construction (s : Construction α)

/-- A basic strategy or an orchestrator of basic strategies. -/
inductive AnyStrategy (G α : Type)
  | basic (s : BasicStrategy G α)
  | orchestrator (s : Orchestrator (BasicStrategy G α) α)

variable {G M V α : Type} [Scalar α] [Model M V α] [MoveGenerator G M V α]

/-- Runs an operation on what a variant holds. -/
@[inline]
def Act.inside {S T β : Type} (held : T) (wrap : T → S) (x : Act T M α β) : Act S M α β :=
  Act.within (fun _ => held) (fun _ t => wrap t) x

namespace BasicStrategy

omit [Scalar α] [Model M V α] [MoveGenerator G M V α] in
/-- The name of a strategy. -/
def name : BasicStrategy G α → String
  | hillClimbing _ => "hill_climbing"
  | greatDeluge _ => "great_deluge"
  | simulatedAnnealing _ => "simulated_annealing"
  | group _ => "group"
  | construction _ => "construction"

/-- Prepares for a search. -/
def init : Act (BasicStrategy G α) M α Unit := do
  match ← Act.part with
  | hillClimbing s => Act.inside s hillClimbing (Strategy.init (V := V))
  | greatDeluge s => Act.inside s greatDeluge (Strategy.init (V := V))
  | simulatedAnnealing s => Act.inside s simulatedAnnealing (Strategy.init (V := V))
  | group s => Act.inside s group (Strategy.init (V := V))
  | construction s => Act.inside s construction (Strategy.init (V := V))

/-- The next proposal. -/
def select : Act (BasicStrategy G α) M α (Option (Proposal V α)) := do
  match ← Act.part with
  | hillClimbing s => Act.inside s hillClimbing Strategy.select
  | greatDeluge s => Act.inside s greatDeluge Strategy.select
  | simulatedAnnealing s => Act.inside s simulatedAnnealing Strategy.select
  | group s => Act.inside s group Strategy.select
  | construction s => Act.inside s construction Strategy.select

/-- Notes a new best state. -/
def bestSaved (M : Type) [Model M V α] [MoveGenerator G M V α] :
    BasicStrategy G α → BasicStrategy G α
  | hillClimbing s => hillClimbing (Strategy.bestSaved M s)
  | greatDeluge s => greatDeluge (Strategy.bestSaved M s)
  | simulatedAnnealing s => simulatedAnnealing (Strategy.bestSaved M s)
  | group s => group (Strategy.bestSaved M s)
  | construction s => construction (Strategy.bestSaved M s)

/-- Sets all learned scores back. -/
def resetScores (M : Type) [Model M V α] [MoveGenerator G M V α] :
    BasicStrategy G α → BasicStrategy G α
  | hillClimbing s => hillClimbing (Strategy.resetScores M s)
  | greatDeluge s => greatDeluge (Strategy.resetScores M s)
  | simulatedAnnealing s => simulatedAnnealing (Strategy.resetScores M s)
  | group s => group (Strategy.resetScores M s)
  | construction s => construction (Strategy.resetScores M s)

def outline (M : Type) [Model M V α] [MoveGenerator G M V α] : BasicStrategy G α → String
  | hillClimbing s => Strategy.outline M s
  | greatDeluge s => Strategy.outline M s
  | simulatedAnnealing s => Strategy.outline M s
  | group s => Strategy.outline M s
  | construction s => Strategy.outline M s

instance : Strategy (BasicStrategy G α) M V α where
  name := name
  init := init
  select := select
  bestSaved := bestSaved M
  resetScores := resetScores M
  outline := outline M

end BasicStrategy

namespace AnyStrategy

omit [Scalar α] [Model M V α] [MoveGenerator G M V α] in
/-- Sets the water level of a great deluge; other strategies have none to set. -/
def setBound (bound : α) : AnyStrategy G α → AnyStrategy G α
  | basic (.greatDeluge s) => basic (.greatDeluge { s with schedule := s.schedule.setBound bound })
  | s => s

omit [Model M V α] [MoveGenerator G M V α] in
/-- Sets the temperature of simulated annealing; other strategies have none to set. -/
def setTemperature (temperature : α) : AnyStrategy G α → AnyStrategy G α
  | basic (.simulatedAnnealing s) =>
    basic (.simulatedAnnealing { s with schedule := s.schedule.setTemperature temperature })
  | s => s

/-- Prepares for a search. -/
def init : Act (AnyStrategy G α) M α Unit := do
  match ← Act.part with
  | basic s => Act.inside s basic (Strategy.init (V := V))
  | orchestrator s => Act.inside s orchestrator (Strategy.init (V := V))

/-- The next proposal. -/
def select : Act (AnyStrategy G α) M α (Option (Proposal V α)) := do
  match ← Act.part with
  | basic s => Act.inside s basic Strategy.select
  | orchestrator s => Act.inside s orchestrator Strategy.select

instance : Strategy (AnyStrategy G α) M V α where
  name
    | basic s => s.name
    | orchestrator _ => "orchestrator"
  init := init
  select := select
  bestSaved
    | basic s => basic (s.bestSaved M)
    | orchestrator s => orchestrator (Strategy.bestSaved M s)
  resetScores
    | basic s => basic (s.resetScores M)
    | orchestrator s => orchestrator (Strategy.resetScores M s)
  outline
    | basic s => s.outline M
    | orchestrator s => Strategy.outline M s

end AnyStrategy

end LocalSearch
