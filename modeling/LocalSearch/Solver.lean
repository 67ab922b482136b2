import LocalSearch.Engine
/-!
# Solvers

A solver runs an engine over a world. While a search runs, a worker has the engine; the owner of the
solver goes on giving commands in between the worker's steps.

* `Solver`: the world, the state, and the engine or the worker that has it.
* `Solver.work`: one step of the worker.
* `Solver.start`, `Solver.stop`, `Solver.join`, `Solver.solve`: the commands.
* `Solver.changeSolution`: what the owner may do while no search runs.

`Solver.work` is the only thing that a worker does, so every interleaving of commands and steps of
the worker is a sequence of these operations.
-/

namespace LocalSearch

/-- The life of a solver. -/
inductive SolverState
  /-- Never started. -/
  | idle
  | running
  /-- Stopped on request, or there was nothing to solve. -/
  | stopped
  /-- The termination condition was met. -/
  | done
  | failed
deriving Repr, DecidableEq, Inhabited

namespace SolverState

/-- Whether a search has ended in this state. -/
def isFinished : SolverState → Bool
  | idle => false
  | running => false
  | stopped => true
  | done => true
  | failed => true

/-- The state as text. -/
def display : SolverState → String
  | idle => "IDLE"
  | running => "RUNNING"
  | stopped => "STOPPED"
  | done => "DONE"
  | failed => "FAILED"

def outline : SolverState → String
  | idle => "Idle"
  | running => "Running"
  | stopped => "Stopped"
  | done => "Done"
  | failed => "Failed"

/-- The state in which a search ends without a failure. -/
def ofEnding : Ending → SolverState
  | .stopped => stopped
  | .done => done

end SolverState

/-- Where a worker is. -/
inductive WorkerStage
  /-- Before the opening. -/
  | opening
  /-- Before the pass with this number, counted from one. -/
  | passing (pass : Nat)
  /-- After the close, with the state to be announced. -/
  | closed (state : SolverState)
  | ended
deriving Repr, DecidableEq

/-- A worker with the engine it runs. -/
structure Worker (S M V α : Type) where
  engine : Engine S M V α
  stage : WorkerStage

/-- Runs an engine over a world. -/
structure Solver (S M V α : Type) where
  world : World M α
  state : SolverState
  /-- The search was asked to stop. -/
  stopRequested : Bool
  /-- The engine, while no worker has it. -/
  engine : Option (Engine S M V α)
  /-- The worker that has the engine; it keeps it until it is joined, also after its end. -/
  worker : Option (Worker S M V α)
  /-- Seconds from the start of a search to each of its passes. -/
  clock : Nat → α

namespace Solver

variable {S M V α : Type}

/-- A solver that was never started. -/
def of (world : World M α) (engine : Engine S M V α) (clock : Nat → α) : Solver S M V α :=
  { world, state := .idle, stopRequested := false, engine := some engine, worker := none, clock }

/-- Whether a search runs. -/
def isRunning (s : Solver S M V α) : Bool :=
  s.state == .running

/-! ## The worker -/

section

variable [Scalar α] [Model M V α] [Strategy S M V α]

/-- Ends the search of a worker with a failure. -/
def workerFails (s : Solver S M V α) (engine : Engine S M V α) (world : World M α)
    (failure : Failure) : Solver S M V α :=
  match Engine.fail (S := S) (V := V) failure (engine, world) with
  | .ok _ (engine, world) | .error _ (engine, world) =>
    { s with world, worker := some ⟨engine, .closed .failed⟩ }

/-- Ends the search of a worker without a failure. -/
def workerCloses (s : Solver S M V α) (engine : Engine S M V α) (world : World M α)
    (ending : Ending) (time : α) : Solver S M V α :=
  let state := SolverState.ofEnding ending
  match Engine.close (S := S) (V := V) ending state.display time (engine, world) with
  | .ok _ (engine, world) | .error _ (engine, world) =>
    { s with world, worker := some ⟨engine, .closed state⟩ }

/-- One step of a worker. -/
def workerStep (s : Solver S M V α) (w : Worker S M V α) : Solver S M V α :=
  match w.stage with
  | .ended => s
  | .closed state => { s with state, worker := some { w with stage := .ended } }
  | .opening =>
    match Engine.opening (S := S) (V := V) (w.engine, s.world) with
    | .error failure (engine, world) => s.workerFails engine world failure
    | .ok nothing (engine, world) =>
      { s with
        world, worker := some ⟨engine, .passing 1⟩, stopRequested := s.stopRequested || nothing }
  | .passing pass =>
    let time := s.clock pass
    match Engine.turn (S := S) (V := V) s.stopRequested time (w.engine, s.world) with
    | .error failure (engine, world) => s.workerFails engine world failure
    | .ok (some ending) (engine, world) => s.workerCloses engine world ending time
    | .ok none (engine, world) => { s with world, worker := some ⟨engine, .passing (pass + 1)⟩ }

/-- One step of the worker, if there is one. -/
def work (s : Solver S M V α) : Solver S M V α :=
  match s.worker with
  | none => s
  | some w => s.workerStep w

/-- Whether there is a worker that has not ended. -/
def isWorking (s : Solver S M V α) : Bool :=
  s.worker.any fun w => w.stage != .ended

/-- Steps of the worker until it has ended or a condition holds; `none` if that takes more than a
number of steps. -/
def workUntil (condition : Solver S M V α → Bool) : Nat → Solver S M V α → Option (Solver S M V α)
  | 0, _ => none
  | fuel + 1, s =>
    if condition s || !s.isWorking then some s else workUntil condition fuel s.work

end

/-! ## Commands -/

/-- Gives the engine to a worker; an error if a worker has it already. -/
def start (s : Solver S M V α) : Except SearchError (Solver S M V α) :=
  match s.engine with
  | none => .error (.invalidState "the solver is already running")
  | some engine => .ok { s with
      engine := none, stopRequested := false, state := .running
      worker := some ⟨engine, .opening⟩ }

/-- Asks the search to stop. -/
def stop (s : Solver S M V α) : Solver S M V α :=
  { s with stopRequested := true }

/-- Takes the engine back from a worker. -/
def takeBack (s : Solver S M V α) : Solver S M V α :=
  match s.worker with
  | none => s
  | some w => { s with engine := some w.engine, worker := none }

section

variable [Scalar α] [Model M V α] [Strategy S M V α]

/-- Waits for the end of the worker, if there is one, and takes the engine back; `none` if that
takes more than a number of steps. -/
def join (fuel : Nat) (s : Solver S M V α) : Option (Solver S M V α) :=
  takeBack <$> workUntil (fun _ => false) fuel s

/-- Starts a search and waits for its end. -/
def solve (fuel : Nat) (s : Solver S M V α) : Except SearchError (Option (Solver S M V α)) :=
  join fuel <$> s.start

end

/-- An operation on the solution, which is an error while a search runs. -/
def changeSolution {β : Type} (x : Attempt (World M α) β) (s : Solver S M V α) :
    EStateM.Result Failure (Solver S M V α) β :=
  if s.isRunning then
    .error (.error (.invalidState "the solution cannot be modified while solving")) s
  else
    match x s.world with
    | .ok b world => .ok b { s with world }
    | .error e world => .error e { s with world }

/-- The solver in one line. -/
def outline [Scalar α] [Model M V α] [Strategy S M V α] (s : Solver S M V α) : String :=
  Outline.record "Solver" [
    ("state", s.state.outline), ("engine", Outline.optional Engine.outline s.engine)]

/-- The configured solver of a model. Without a configured seed the random stream has the given
one. -/
def ofProperties [Scalar α] [Model M V α] {X : Type} (model : M) (props : Properties)
    (r : Registry X) (entropy : UInt64) (clock : Nat → α) (threshold : Option Level) :
    Except Failure (Solver (AnyStrategy (Generator X α) α) M V α) := do
  let (engine, seed) ← Engine.ofProperties r props
  let seed := (seed.map UInt64.ofNat).getD entropy
  return .of (.ofSolution (.ofModel model) (.standard seed) threshold) engine clock

end Solver

end LocalSearch
