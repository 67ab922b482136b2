import LocalSearch.Model.Basic
import LocalSearch.Outline
import LocalSearch.Scalar
/-!
# Independent penalties

Every variable picks one option from its own row of a penalty table. Nothing conflicts, and the
total value is the sum of the chosen penalties. A value is the index of an option.
-/

namespace LocalSearch

/-- A table of penalties with an assignment of options to its rows. -/
structure Penalty (α : Type) where
  /-- One row of penalties for each variable. -/
  table : List (List α)
  assigned : List (Option Nat)
  best : Option (List (Option Nat))
  /-- How often a variable was given a value. -/
  assignments : Nat

namespace Penalty

variable {α : Type}

/-- A table with an assignment of the same length. -/
def ofAssigned (table : List (List α)) (assigned : List (Option Nat)) :
    Except Fault (Penalty α) :=
  if table.length = assigned.length then .ok ⟨table, assigned, none, 0⟩
  else .error (.lengthMismatch table.length assigned.length)

/-- A table with nothing assigned. -/
def ofTable (table : List (List α)) : Penalty α :=
  ⟨table, table.map fun _ => none, none, 0⟩

/-- The number of variables without an option. -/
def openCount (assigned : List (Option Nat)) : Nat :=
  (assigned.filter Option.isNone).length

variable [Scalar α]

/-- The penalty of an option of a variable; no option costs nothing. -/
def penaltyOf (p : Penalty α) (v : Nat) : Option Nat → Except Fault α
  | none => .ok 0
  | some option => do fetch (← fetch p.table v) option

/-- The penalty of the option a variable has now. -/
def current (p : Penalty α) (v : Nat) : Except Fault α := do
  p.penaltyOf v (← fetch p.assigned v)

/-- By how much the total changes when the variable takes the option. -/
def delta (p : Penalty α) (v option : Nat) : Except Fault α := do
  let after ← fetch (← fetch p.table v) option
  return after - (← p.current v)

/-- By how much the total changes when two variables exchange their options; each option must
exist in the other row. -/
def swapDelta (p : Penalty α) (a b : Nat) : Except Fault (Option α) := do
  let some optionA ← fetch p.assigned a | return none
  let some optionB ← fetch p.assigned b | return none
  let rowA ← fetch p.table a
  let some afterA := rowA[optionB]? | return none
  let rowB ← fetch p.table b
  let some afterB := rowB[optionA]? | return none
  return some (afterA + afterB - (← fetch rowA optionA) - (← fetch rowB optionB))

/-- The sum of the chosen penalties. -/
def totalValue (p : Penalty α) : Except Fault α := do
  return Scalar.sum (← (List.range p.assigned.length).mapM p.current)

/-- The total value and the number of assigned variables. -/
def info (p : Penalty α) : Except Fault Dictionary := do
  let count := p.assigned.length
  return Dictionary.ofList [
    ("Total value", Scalar.display (← p.totalValue)),
    ("Assigned variables", toString (count - openCount p.assigned) ++ "/" ++ toString count)]

/-- The options of an assignment. -/
def outlineOptions (assigned : List (Option Nat)) : String :=
  Outline.list (assigned.map (Outline.optional toString))

/-- All of the model in one line. -/
def outline (p : Penalty α) : String :=
  Outline.record "PenaltyModel" [
    ("penalties", Outline.list (p.table.map fun row => Outline.list (row.map Scalar.outline))),
    ("domains", Outline.list (p.table.map fun row =>
      Outline.list ((List.range row.length).map toString))),
    ("assigned", outlineOptions p.assigned),
    ("best", Outline.optional outlineOptions p.best),
    ("assignments", toString p.assignments)]

instance : Model (Penalty α) Nat α where
  variableCount p := p.assigned.length
  values p v := do return List.range (← fetch p.table v).length
  assignment p v := fetch p.assigned v
  assign p v option := do
    return { p with
      assigned := ← store p.assigned v (some option), assignments := p.assignments + 1 }
  -- the assignment is counted before it is made
  spoiled p := { p with assignments := p.assignments + 1 }
  unassign p v := do return { p with assigned := ← store p.assigned v none }
  delta := delta
  conflicts _ _ _ := .ok []
  swapDelta := swapDelta
  unassignedCount p := openCount p.assigned
  totalValue := totalValue
  saveBest p := { p with best := some p.assigned }
  restoreBest p := { p with assigned := p.best.getD (p.assigned.map fun _ => none) }
  clearBest p := { p with best := none }
  bestUnassignedCount p := (p.best.map openCount).getD p.assigned.length
  info := info
  same a b := a == b
  outline := outline
  outlineValue := toString

end Penalty

end LocalSearch
