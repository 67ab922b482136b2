import LocalSearch.Comparator
import LocalSearch.Extension
import LocalSearch.Observers
import LocalSearch.Registry
import LocalSearch.Termination
/-!
# Engines

An engine holds everything that a search runs with, apart from the world it works on. A search is an
opening, a number of passes, and a close.

* `Engine.opening`: prepares the strategy and the extensions and saves a first best state.
* `Engine.turn`: the end of the search, or one pass: a proposal is selected, shown to the guards,
  and committed.
* `Engine.close`, `Engine.fail`: the ends of a search.
* `Engine.saveIfBetter`: keeps the current state if it is the best one.

The clock is a parameter: a pass gets the number of seconds since the search was started.
-/

namespace LocalSearch

/-- Everything a search runs with. -/
structure Engine (S M V α : Type) where
  strategy : S
  termination : Termination
  comparator : Comparator M α
  observers : Observers V α
  extensions : Extensions
  /-- How many variables a best state may leave unassigned; negative for any number. -/
  saveBestUnassigned : Int

/-- How the passes of a search end without a failure. -/
inductive Ending
  /-- On request, or because there was nothing to solve. -/
  | stopped
  /-- The termination condition is met. -/
  | done
deriving Repr, DecidableEq

namespace Engine

variable {S M V α : Type}

/-- An operation on the strategy. -/
@[inline]
def onStrategy {β : Type} (x : Act S M α β) : Act (Engine S M V α) M α β :=
  Act.within (·.strategy) (fun e strategy => { e with strategy }) x

/-- An operation on the extensions. -/
@[inline]
def onExtensions {β : Type} (x : Act Extensions M α β) : Act (Engine S M V α) M α β :=
  Act.within (·.extensions) (fun e extensions => { e with extensions }) x

/-- Tells the hooks. -/
def tellHooks (notice : String → Notice α) : Act (Engine S M V α) M α Unit :=
  modify fun (e, w) => (e, w.tell (e.observers.notices notice))

/-- Tells the extensions. -/
def tellExtensions (notice : String → Notice α) : Act (Engine S M V α) M α Unit :=
  modify fun (e, w) => (e, w.tell (e.extensions.notices notice))

variable [Scalar α] [Model M V α] [Strategy S M V α]

/-- An engine around a strategy that never ends a search on its own. -/
def of (strategy : S) : Engine S M V α :=
  { strategy, termination := [], comparator := .general, observers := .none, extensions := .none,
    saveBestUnassigned := 0 }

/-- Saves the current state as the best one and reports it. -/
def saveBest : Act (Engine S M V α) M α Unit := do
  let before ← Act.solution
  let first := Model.isComplete before.model && !before.isBestComplete
  Act.onWorld World.saveBest
  onStrategy (Act.change (Strategy.bestSaved M))
  let s ← Act.solution
  if first then
    Act.report .info "complete_solution" fun _ => [
      ("iteration", .count s.iteration), ("time", .number s.time),
      ("total_value", .number s.bestValue)]
  Act.report .debug "best_saved" fun _ => [
    ("iteration", .count s.iteration), ("total_value", .number s.bestValue),
    ("unassigned", .count (Model.unassignedCount s.model))]

/-- Saves the current state as the best one if it is allowed to be and is better than the best. -/
def saveIfBetter : Act (Engine S M V α) M α Unit := do
  let (e, w) ← get
  if GeneralConfig.withinLimit e.saveBestUnassigned (Model.unassignedCount w.solution.model) then
    if ← e.comparator.isBetter w.solution then
      saveBest

/-- Prepares a search. Answers whether there is nothing to solve. -/
def opening : Act (Engine S M V α) M α Bool := do
  onStrategy Strategy.init
  onExtensions Extensions.init
  let (e, w) ← get
  let model := w.solution.model
  if w.journal.keeps .info then
    let total ← Model.totalValue model
    Act.report .info "solve_start" fun _ => [
      ("strategy", .text (Strategy.name M e.strategy)),
      ("variables", .count (Model.variableCount model)),
      ("unassigned", .count (Model.unassignedCount model)), ("total_value", .number total)]
  tellHooks (.started · w.solution.iteration)
  saveIfBetter
  if Model.variableCount (← Act.solution).model = 0 then
    Act.report .warn "nothing_to_solve" fun _ => []
    return true
  return false

/-- The next proposal, if there is one and no guard vetoes it. -/
def select : Act (Engine S M V α) M α (Option (Proposal V α)) := do
  match ← onStrategy Strategy.select with
  | none => return none
  | some proposal =>
    let (e, w) ← get
    let (answer, asked, observers) := e.observers.ask w.solution.iteration proposal
    set ({ e with observers }, w.tell asked)
    return if ← answer then some proposal else none

/-- Counts an iteration. -/
def count (time : α) : Act (Engine S M V α) M α Unit :=
  modify fun (e, w) => (e, w.update time)

/-- Commits a proposal, tells about it, and keeps the result if it is the best. -/
def commit (proposal : Proposal V α) (time : α) : Act (Engine S M V α) M α Unit := do
  let iteration := (← Act.solution).iteration
  let commit ← Act.onWorld (World.onModel proposal.commit)
  count time
  match commit with
  | .applied delta =>
    Act.report .trace "step" fun _ => [("iteration", .count iteration), ("value", .number delta)]
    let now := (← Act.solution).iteration
    tellHooks (.assigned · delta now)
    tellExtensions (.extensionAssigned · delta)
    saveIfBetter
  | .rejected delta =>
    Act.report .trace "lazy_rejected" fun _ => [
      ("iteration", .count iteration), ("value", .number delta)]

/-- One pass: a proposal is committed, or the pass counts as one without a move. -/
def pass (time : α) : Act (Engine S M V α) M α Unit := do
  match ← select with
  | some proposal => commit proposal time
  | none =>
    let iteration := (← Act.solution).iteration
    Act.report .trace "no_neighbour" fun _ => [("iteration", .count iteration)]
    count time

/-- The end of the passes, if the search is to stop or its termination condition is met, and
otherwise one more pass. -/
def turn (stop : Bool) (time : α) : Act (Engine S M V α) M α (Option Ending) := do
  if stop then return some .stopped
  let (e, w) ← get
  if e.termination.holds w.solution then return some .done
  pass time
  return none

/-- The end of a search without a failure, reported under a name. -/
def close (ending : Ending) (state : String) (time : α) : Act (Engine S M V α) M α Unit := do
  tellExtensions .extensionDone
  let s ← Act.solution
  match ending with
  | .stopped => tellHooks (.stopped · s.iteration)
  | .done => tellHooks (.finished · s.iteration)
  Act.report .info "solve_end" fun _ => [
    ("state", .shown state), ("iterations", .count s.totalIterations), ("time", .number time),
    ("best_value", .number s.bestValue), ("best_iteration", .integer s.bestIteration)]

/-- The end of a search with a failure. -/
def fail (failure : Failure) : Act (Engine S M V α) M α Unit := do
  let message := failure.report.message
  let iteration := (← Act.solution).iteration
  Act.report .error "solve_failed" fun _ => [
    ("error", .shown message), ("iteration", .count iteration)]
  tellHooks (.failed · message iteration)

/-- The engine in one line. -/
def outline (e : Engine S M V α) : String :=
  Outline.record "SearchEngine" [
    ("selection", Strategy.outline M e.strategy), ("termination", e.termination.outline),
    ("comparator", e.comparator.name), ("events", e.observers.outline),
    ("extensions", e.extensions.outline),
    ("save_best_unassigned", toString e.saveBestUnassigned)]

omit [Strategy S M V α] in
/-- Builds the configured engine, and reads the seed of its random stream. -/
def ofProperties {X : Type} (r : Registry X) (props : Properties) :
    Except Failure (Engine (AnyStrategy (Generator X α) α) M V α × Option Nat) := do
  let general ← GeneralConfig.ofProperties props
  let strategy ← r.buildStrategy props
  let termination ← Termination.ofProperties α props
  let termination ← termination
  return ({
    strategy, termination, comparator := .general, observers := .none, extensions := .none,
    saveBestUnassigned := general.saveBestUnassigned }, general.seed)

end Engine

end LocalSearch
