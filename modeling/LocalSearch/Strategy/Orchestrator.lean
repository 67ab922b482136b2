import LocalSearch.Strategy.Construction
/-!
# Orchestration

Construction followed by a rotation of stages.

* Construction runs until it offers nothing. Then the stages take turns in the order of their ranks,
  each until it offers nothing; a call that went once round the rotation offers nothing.
* If too many construction calls in a row leave as many variables unassigned as the best call before
  them, every variable is unassigned, the stages forget their scores, and construction starts anew.
-/

namespace LocalSearch

/-- A phase of the orchestrated search. -/
inductive Phase
  | construction | hillClimbing | greatDeluge | simulatedAnnealing | restart
deriving Repr, DecidableEq, Inhabited

namespace Phase

/-- All phases. -/
def all : List Phase :=
  [construction, hillClimbing, greatDeluge, simulatedAnnealing, restart]

/-- The name of a phase. -/
def display : Phase → String
  | construction => "construction"
  | hillClimbing => "hill_climbing"
  | greatDeluge => "great_deluge"
  | simulatedAnnealing => "simulated_annealing"
  | restart => "restart"

def outline : Phase → String
  | construction => "Construction"
  | hillClimbing => "HillClimbing"
  | greatDeluge => "GreatDeluge"
  | simulatedAnnealing => "SimulatedAnnealing"
  | restart => "Restart"

/-- The phase with a description. -/
def ofOutline? (s : String) : Option Phase :=
  all.find? fun phase => phase.outline == s

end Phase

/-- A strategy with its rank in the rotation and the phase it stands for. -/
structure Stage (S : Type) where
  rank : Int
  phase : Phase
  strategy : S

/-- Construction and a rotation of stages. -/
structure Orchestrator (S α : Type) where
  construction : Construction α
  /-- The stages in ascending order of their ranks. -/
  stages : List (Stage S)
  phase : Phase
  /-- The index of the stage whose turn it is. -/
  current : Nat
  restartLimit : Nat
  /-- The least number of unassigned variables that construction has left so far. -/
  lastUnassigned : Option Nat
  /-- Construction calls since that number was reached. -/
  stalled : Nat
  restarts : Nat

namespace Orchestrator

variable {S M V α : Type}

/-- The first two neighbours of equal rank in a list. -/
def firstTie? : List (Stage S) → Option (Stage S × Stage S)
  | a :: b :: rest => if a.rank = b.rank then some (a, b) else firstTie? (b :: rest)
  | _ => none

/-- An orchestrator of the stages that are not disabled by a negative rank. There must be one, and
no two may share a rank. -/
def of (construction : Construction α) (stages : List (Stage S)) (restartLimit : Nat) :
    Except SearchError (Orchestrator S α) :=
  let stages := (stages.filter fun s => 0 ≤ s.rank).mergeSort fun a b => a.rank ≤ b.rank
  if stages.isEmpty then
    .error (.config "the orchestrator needs at least one enabled strategy")
  else
    match firstTie? stages with
    | some (a, b) =>
      .error (.config (a.phase.display ++ " and " ++ b.phase.display ++ " share rank " ++
        toString a.rank))
    | none => .ok {
        construction, stages, phase := .construction, current := 0
        restartLimit := max restartLimit 1, lastUnassigned := none, stalled := 0, restarts := 0 }

/-- The phases of the stages in order. -/
def rotation (o : Orchestrator S α) : List Phase :=
  o.stages.map Stage.phase

/-- Observes how many variables construction has left unassigned. Says whether it has been stuck for
too long. -/
def observe (o : Orchestrator S α) (unassigned : Nat) : Orchestrator S α × Bool :=
  match o.lastUnassigned with
  | some last =>
    if last ≤ unassigned then
      ({ o with stalled := o.stalled + 1 }, o.restartLimit ≤ o.stalled + 1)
    else ({ o with lastUnassigned := some unassigned, stalled := 0 }, false)
  | none => ({ o with lastUnassigned := some unassigned, stalled := 0 }, false)

/-- An operation on the construction phase. -/
@[inline]
def onConstruction {β : Type} (x : Act (Construction α) M α β) :
    Act (Orchestrator S α) M α β :=
  Act.within (·.construction) (fun o construction => { o with construction }) x

variable [Scalar α] [Model M V α]

/-- Enters a phase. -/
def switchTo (phase : Phase) : Act (Orchestrator S α) M α Unit := do
  let (o, w) ← get
  let model := w.solution.model
  let fields ← (if w.journal.keeps .debug then do
      return [("from", .shown o.phase.display), ("to", .shown phase.display),
        ("iteration", .count w.solution.iteration),
        ("total_value", .number (← Model.totalValue model)),
        ("unassigned", .count (Model.unassignedCount model))]
    else return [] : Except Fault (List (String × FieldValue α)))
  Act.report .debug "phase_switch" fun _ => fields
  Act.change fun o => { o with phase }

omit [Scalar α] in
/-- Takes every variable its value. -/
def unassignAll : Act (Orchestrator S α) M α Unit := do
  let n := Model.variableCount (← Act.solution).model
  Act.onWorld <| World.onModel <|
    (List.range n).forM fun v => Attempt.update (Model.unassign · v)

variable [Strategy S M V α]

/-- Starts construction anew. -/
def restart (M : Type) {V : Type} [Model M V α] [Strategy S M V α] :
    Act (Orchestrator S α) M α Unit := do
  unassignAll
  Act.change fun o => { o with
    stages := o.stages.map fun s => { s with strategy := Strategy.resetScores M s.strategy }
    restarts := o.restarts + 1, lastUnassigned := none, stalled := 0 }
  let o ← Act.part
  let iteration := (← Act.solution).iteration
  Act.report .info "restart" fun _ => [
    ("restarts", .count o.restarts), ("iteration", .count iteration)]

/-- Prepares a stage for a search. -/
def initStage (index : Nat) : Act (Orchestrator S α) M α Unit := do
  let stage ← fetch (← Act.part).stages index
  Act.within (fun _ => stage.strategy)
    (fun o strategy => { o with stages := o.stages.set index { stage with strategy } })
    (Strategy.init (V := V))

/-- Prepares construction and every stage for a search. -/
def init : Act (Orchestrator S α) M α Unit := do
  onConstruction (Strategy.init (V := V))
  (List.range (← Act.part).stages.length).forM initStage
  Act.change fun o => { o with
    phase := .construction, current := 0, lastUnassigned := none, stalled := 0, restarts := 0 }

/-- Asks a stage for a proposal. -/
def ask (index : Nat) : Act (Orchestrator S α) M α (Option (Proposal V α)) := do
  let stage ← fetch (← Act.part).stages index
  Act.within (fun _ => stage.strategy)
    (fun o strategy => { o with stages := o.stages.set index { stage with strategy } })
    Strategy.select

/-- Enters the phase of the stage whose turn it is. -/
def enterStage (index : Nat) : Act (Orchestrator S α) M α Unit := do
  Act.change fun o => { o with current := index }
  let stage ← fetch (← Act.part).stages index
  switchTo stage.phase

/-- One step in the current phase: a proposal, an offer of nothing, or no answer yet. `exhausted`
counts the stages that had nothing to offer in this call. -/
def phaseStep (exhausted : Nat) :
    Act (Orchestrator S α) M α (Except Nat (Option (Proposal V α))) := do
  match (← Act.part).phase with
  | .construction =>
    let proposal ← onConstruction Construction.select
    let (o, w) ← get
    let (o, stuck) := o.observe (Model.unassignedCount w.solution.model)
    set (o, w)
    if stuck then
      switchTo .restart
      return .error exhausted
    else if proposal.isSome then return .ok proposal
    else
      enterStage 0
      return .error exhausted
  | .restart =>
    restart M
    switchTo .construction
    return .error exhausted
  | _ =>
    let index := (← Act.part).current
    match ← ask index with
    | some proposal => return .ok (some proposal)
    | none =>
      let count := (← Act.part).stages.length
      enterStage ((index + 1) % count)
      if count ≤ exhausted + 1 then return .ok none else return .error (exhausted + 1)

/-- Steps until there is an answer. With stages that stand for acceptance phases a call takes at
most three steps more than there are stages. -/
def steps (exhausted : Nat) : Nat → Act (Orchestrator S α) M α (Option (Proposal V α))
  | 0 => throw (.fault .endless)
  | fuel + 1 => do
    match ← phaseStep exhausted with
    | .ok answer => return answer
    | .error exhausted => steps exhausted fuel

/-- A number of steps that no call exceeds which comes to an end: a stage may stand for construction
itself, and then each turn round the rotation may take as many steps as there are calls before a
restart. -/
def stepLimit (o : Orchestrator S α) : Nat :=
  (o.stages.length + 2) * (o.restartLimit + 4)

/-- The next proposal. -/
def select : Act (Orchestrator S α) M α (Option (Proposal V α)) := do
  steps 0 (← Act.part).stepLimit

instance : Strategy (Orchestrator S α) M V α where
  name _ := "orchestrator"
  init := init
  select := select
  bestSaved o := { o with
    stages := o.stages.map fun s => { s with strategy := Strategy.bestSaved M s.strategy } }
  resetScores o := { o with
    stages := o.stages.map fun s => { s with strategy := Strategy.resetScores M s.strategy } }
  outline o := Outline.record "Orchestrator" [
    ("phase", o.phase.outline), ("rotation", Outline.list (o.rotation.map Phase.outline)),
    ("restart_limit", toString o.restartLimit), ("restarts", toString o.restarts)]

end Orchestrator

end LocalSearch
