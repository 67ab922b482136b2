import LocalSearch.Strategy.Basic
/-!
# Observers of a search

* `Guard`: sees a proposal before it is committed and may veto it or break off.
* `Hook`: is told of the start of a search, of every commit and of the end.
* `Observers.ask`: asks the guards in order until one vetoes or breaks off.

A guard may keep something to itself between two questions, so its answer depends on the questions
before: a guard is a rule over them together with those it has heard so far. Whatever else a guard
draws on, the answers that it gives in a search are those of such a rule, which can count them.
-/

namespace LocalSearch

/-- An observer that may veto proposals. -/
structure Guard (V α : Type) where
  /-- The name under which its questions are noted; `none` if they are not. -/
  name : Option String
  /-- Whether a proposal of an iteration may be committed, after some questions, the last one
  first. -/
  rule : List (Nat × Proposal V α) → Nat → Proposal V α → Except Fault Bool
  /-- The questions so far, the last one first. -/
  asked : List (Nat × Proposal V α) := []

namespace Guard

variable {V α : Type}

/-- Whether a proposal of an iteration may be committed. -/
def keeps (guard : Guard V α) (iteration : Nat) (p : Proposal V α) : Except Fault Bool :=
  guard.rule guard.asked iteration p

/-- The guard once it has been asked about a proposal. -/
def hear (guard : Guard V α) (iteration : Nat) (p : Proposal V α) : Guard V α :=
  { guard with asked := (iteration, p) :: guard.asked }

end Guard

/-- An observer of the course of a search. -/
structure Hook where
  /-- The name under which it is told of the search; `none` if it does not want to be. -/
  name : Option String

/-- The observers of a search in the order of their registration. -/
structure Observers (V α : Type) where
  guards : List (Guard V α)
  hooks : List Hook

namespace Observers

variable {V α : Type}

/-- No observers. -/
def none : Observers V α := ⟨[], []⟩

/-- Adds a guard. -/
def addGuard (o : Observers V α) (guard : Guard V α) : Observers V α :=
  { o with guards := o.guards ++ [guard] }

/-- Adds a hook. -/
def addHook (o : Observers V α) (hook : Hook) : Observers V α :=
  { o with hooks := o.hooks ++ [hook] }

/-- Asks guards in order until one vetoes or breaks off: the answer, the questions asked, and the
guards after them. -/
def askAll (iteration : Nat) (p : Proposal V α) :
    List (Guard V α) → Except Fault Bool × List (Notice α) × List (Guard V α)
  | [] => (.ok true, [], [])
  | guard :: rest =>
    let asked := (guard.name.map (Notice.asked · p.delta? iteration)).toList
    match guard.keeps iteration p with
    | .ok true =>
      let (answer, more, rest) := askAll iteration p rest
      (answer, asked ++ more, guard.hear iteration p :: rest)
    | answer => (answer, asked, guard.hear iteration p :: rest)

/-- Asks the guards whether a proposal may be committed. -/
def ask (o : Observers V α) (iteration : Nat) (p : Proposal V α) :
    Except Fault Bool × List (Notice α) × Observers V α :=
  let (answer, asked, guards) := askAll iteration p o.guards
  (answer, asked, { o with guards })

/-- What the hooks with a name are told. -/
def notices (o : Observers V α) (notice : String → Notice α) : List (Notice α) :=
  o.hooks.filterMap fun hook => hook.name.map notice

/-- The numbers of observers. -/
def outline (o : Observers V α) : String :=
  Outline.record "SolverEventSupport" [
    ("solver_listeners", toString o.guards.length), ("lifecycles", toString o.hooks.length)]

end Observers

end LocalSearch
