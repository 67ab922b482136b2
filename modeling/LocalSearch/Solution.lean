import LocalSearch.Model.Basic
import LocalSearch.Notice
import LocalSearch.Outline
import LocalSearch.Scalar
/-!
# Solutions

A model under search with the counters of the search and a snapshot of the best state.

* `Solution`: the model, the iteration, the time, and the snapshot.
* `Solution.update`: counts an iteration.
* `Solution.saveBest`, `Solution.restoreBest`, `Solution.clearBest`: keep the current state as the
  best one, go back to it, forget it.
* `Solution.info`: the model's diagnostics with those of the search and of the listeners.

A solution does not judge whether its state is worth keeping. Going back to the best state also
takes the iteration and the time back, but not the count of all updates.
-/

namespace LocalSearch

/-- What is recorded about a best state, apart from the assignment, which the model keeps. -/
structure Snapshot (α : Type) where
  iteration : Nat
  time : α
  value : α
  complete : Bool
  info : Dictionary
  perturbation : α

namespace Snapshot

/-- The snapshot in one line. -/
def outline {α : Type} [Scalar α] (s : Snapshot α) : String :=
  Outline.record "BestSnapshot" [
    ("iteration", toString s.iteration), ("time", Scalar.outline s.time),
    ("value", Scalar.outline s.value), ("complete", Outline.flag s.complete),
    ("info", Outline.dictionary s.info.entries),
    ("perturbation_penalty", Scalar.outline s.perturbation)]

end Snapshot

/-- An observer of a solution. -/
structure SolutionListener where
  /-- The name under which it is told of changes; `none` if it does not want to be. -/
  name : Option String
  /-- What it adds to the diagnostics at an iteration. -/
  contribute : Nat → Dictionary → Dictionary

/-- A model under search. -/
structure Solution (M α : Type) where
  model : M
  iteration : Nat
  /-- The number of updates, which going back to the best state does not change. -/
  totalIterations : Nat
  /-- Seconds at the last update. -/
  time : α
  best : Option (Snapshot α)
  /-- The best state was forgotten and none saved since. -/
  cleared : Bool
  listeners : List SolutionListener
  /-- Counts what the assignment differs from some reference. -/
  perturbation : Option (M → α)

namespace Solution

variable {M V α : Type} [Model M V α] [Scalar α]

/-- A solution of a model at the start of everything. -/
def ofModel (model : M) : Solution M α :=
  { model, iteration := 0, totalIterations := 0, time := 0, best := none, cleared := false,
    listeners := [], perturbation := none }

/-- Counts an iteration and notes the time. -/
def update (s : Solution M α) (time : α) : Solution M α :=
  { s with time, iteration := s.iteration + 1, totalIterations := s.totalIterations + 1 }

/-- The perturbation of the current assignment, zero if nobody counts it. -/
def perturbationPenalty (s : Solution M α) : α :=
  match s.perturbation with
  | none => 0
  | some penalty => penalty s.model

/-- Adds the counters of the search and what the listeners contribute to the diagnostics. -/
def decorate (s : Solution M α) (info : Dictionary) : Dictionary :=
  let info := info.insert "Time" (Scalar.fixed 2 s.time ++ " sec")
  let info := info.insert "Iteration" (toString s.iteration)
  let info := if (0 : α) < s.time then
    info.insert "Speed" (Scalar.fixed 2 (Scalar.ofNat s.iteration / s.time) ++ " it/s") else info
  let info := match s.perturbation with
    | none => info
    | some penalty => info.insert "Perturbations" (Scalar.display (penalty s.model))
  s.listeners.foldl (fun info listener => listener.contribute s.iteration info) info

/-- The diagnostics of the model and of the search. -/
def info (s : Solution M α) : Except Fault Dictionary :=
  s.decorate <$> Model.info s.model

/-- The detailed diagnostics of the model and those of the search. -/
def extendedInfo (s : Solution M α) : Except Fault Dictionary :=
  s.decorate <$> Model.extendedInfo s.model

/-- What would be recorded about the current state. -/
def snapshot (s : Solution M α) : Except Fault (Snapshot α) := do
  return {
    iteration := s.iteration
    time := s.time
    value := ← Model.totalValue s.model
    complete := Model.isComplete s.model
    info := ← s.info
    perturbation := s.perturbationPenalty }

/-- Keeps the current state as the best one. The model has kept its assignment already when the
recording fails. -/
def saveBest : Attempt (Solution M α) Unit := do
  modify fun s => { s with model := Model.saveBest s.model }
  let best ← (← get).snapshot
  modify fun s => { s with best := some best, cleared := false }

/-- Goes back to the best state. Nothing happens if none is saved. -/
def restoreBest (s : Solution M α) : Solution M α :=
  match s.best with
  | none => s
  | some best =>
    { s with iteration := best.iteration, time := best.time, model := Model.restoreBest s.model }

/-- Forgets the best state. -/
def clearBest (s : Solution M α) : Solution M α :=
  { s with best := none, cleared := true, model := Model.clearBest s.model }

/-- The iteration of the best state: the current one if none was ever saved, and minus one after
the best state was forgotten. -/
def bestIteration (s : Solution M α) : Int :=
  match s.best with
  | some best => best.iteration
  | none => if s.cleared then -1 else s.iteration

/-- The time of the best state, with the same exceptions. -/
def bestTime (s : Solution M α) : α :=
  match s.best with
  | some best => best.time
  | none => if s.cleared then -1 else s.time

/-- The total value of the best state, zero if none is saved. -/
def bestValue (s : Solution M α) : α :=
  match s.best with
  | some best => best.value
  | none => 0

/-- Whether a best state is saved and assigns every variable. -/
def isBestComplete (s : Solution M α) : Bool :=
  match s.best with
  | some best => best.complete
  | none => false

/-- The perturbation of the best state, minus one if none is saved. -/
def bestPerturbation (s : Solution M α) : α :=
  match s.best with
  | some best => best.perturbation
  | none => -1

/-- The value that acceptance rules compare with: that of the best state once there is one, and the
current one before. -/
def referenceValue (s : Solution M α) : Except Fault α :=
  match s.best with
  | some best => .ok best.value
  | none => Model.totalValue s.model

/-- What the listeners with a name are told. -/
def notices (s : Solution M α) (notice : String → Nat → Notice α) : List (Notice α) :=
  s.listeners.filterMap fun listener => listener.name.map (notice · s.iteration)

/-- The solution in one line. -/
def outline (s : Solution M α) : String :=
  Outline.record "Solution" [
    ("model", Model.outline s.model), ("iteration", toString s.iteration),
    ("time", Scalar.outline s.time), ("best", Outline.optional Snapshot.outline s.best),
    ("listeners", toString s.listeners.length)]

end Solution

end LocalSearch
