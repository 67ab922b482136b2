import LocalSearch.Dictionary
import LocalSearch.Failure
/-!
# Models

A model owns a fixed number of variables, each with a list of values it may take, and says what an
assignment costs. A search sees values only through the operations of the class `Model`.

* `Model`: the operations. Reading or writing a variable that does not exist is a fault.
* `Model.put`: an assignment as an operation on the model, which a failing one may leave spoiled.
* `Model.isComplete`, `Model.totalDomainSize`: what follows from them.
* `fetch`, `store`: list access with a fault out of bounds.

A lower total value is better. Assigning a value that conflicts with other variables unassigns
those. A model keeps its own copy of the best assignment.
-/

namespace LocalSearch

/-- The item at an index. -/
def fetch {β : Type} (items : List β) (index : Nat) : Except Fault β :=
  match items[index]? with
  | some item => .ok item
  | none => .error (.indexOutOfBounds items.length index)

/-- The list with another item at an index. -/
def store {β : Type} (items : List β) (index : Nat) (item : β) : Except Fault (List β) :=
  if index < items.length then .ok (items.set index item)
  else .error (.indexOutOfBounds items.length index)

/-- A problem with variables `0, 1, …`, values of type `V` and penalties of type `α`. -/
class Model (M : Type) (V α : outParam Type) where
  variableCount : M → Nat
  /-- The values a variable may take. -/
  values : M → Nat → Except Fault (List V)
  /-- The value of a variable, `none` if it is unassigned. -/
  assignment : M → Nat → Except Fault (Option V)
  /-- Gives a variable a value and unassigns the variables in conflict with it. -/
  assign : M → Nat → V → Except Fault M
  /-- What an assignment that fails leaves of the model. -/
  spoiled : M → M := id
  unassign : M → Nat → Except Fault M
  /-- By how much the total value would change if the variable took the value. -/
  delta : M → Nat → V → Except Fault α
  /-- The variables whose values conflict with giving the variable the value. -/
  conflicts : M → Nat → V → Except Fault (List Nat)
  /-- By how much the total value would change if two variables exchanged their values; `none` if
  they cannot or if the model does not know. -/
  swapDelta : M → Nat → Nat → Except Fault (Option α) := fun _ _ _ => .ok none
  unassignedCount : M → Nat
  /-- The penalty of the current assignment. -/
  totalValue : M → Except Fault α
  /-- Keeps the current assignment as the best one. -/
  saveBest : M → M
  /-- Puts the best assignment back, or unassigns every variable if there is none. -/
  restoreBest : M → M
  /-- Forgets the best assignment. -/
  clearBest : M → M
  bestUnassignedCount : M → Nat
  /-- Short diagnostics. -/
  info : M → Except Fault Dictionary
  /-- Detailed diagnostics. -/
  extendedInfo : M → Except Fault Dictionary := info
  /-- Whether two values are the same. -/
  same : V → V → Bool
  outline : M → String
  outlineValue : V → String

namespace Model

variable {M V α : Type} [Model M V α]

/-- Gives a variable a value and unassigns the variables in conflict with it. -/
def put (v : Nat) (value : V) : Attempt M Unit
  | model => match assign model v value with
    | .ok model => .ok () model
    | .error fault => .error (.fault fault) (spoiled model)

/-- Whether every variable has a value. -/
def isComplete (model : M) : Bool :=
  unassignedCount model == 0

/-- The number of values of all variables together. -/
def totalDomainSize (model : M) : Except Fault Nat := do
  let sizes ← (List.range (variableCount model)).mapM fun v =>
    List.length <$> values model v
  return sizes.foldl (· + ·) 0

/-- The current value of every variable. -/
def assignments (model : M) : Except Fault (List (Option V)) :=
  (List.range (variableCount model)).mapM (assignment model)

end Model

end LocalSearch
