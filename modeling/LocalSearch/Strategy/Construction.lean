import LocalSearch.Config.Acceptance
import LocalSearch.Strategy.Basic
/-!
# Construction

Gives unassigned variables values one after the other. A call picks a random unassigned variable
with a value to take and, among its values, one of those with the least score
`conflicts * conflictWeight + delta * valueWeight`. Choices made recently are tabu unless all
values of the variable are.

* `Construction.best`: the values of least score.
* `Construction.select`: one call.
-/

namespace LocalSearch

/-- The construction phase with the choices it remembers, the oldest first, as pairs of a variable
and the index of a value. -/
structure Construction (α : Type) where
  config : ConstructionConfig α
  tabu : List (Nat × Nat)

namespace Construction

variable {M V α : Type} [Scalar α]

omit [Scalar α] in
/-- Nothing is tabu. -/
def of (config : ConstructionConfig α) : Construction α := ⟨config, []⟩

omit [Scalar α] in
/-- Remembers a choice and forgets the oldest one beyond the size of the list. -/
def remember (c : Construction α) (choice : Nat × Nat) : Construction α :=
  if c.config.tabuSize = 0 then c
  else if c.config.tabuSize ≤ c.tabu.length then { c with tabu := c.tabu.drop 1 ++ [choice] }
  else { c with tabu := c.tabu ++ [choice] }

/-- The least score so far with the choices that have it, in order; each choice is the index of a
value with the change of the total. -/
abbrev Best (α : Type) := Option (α × List (Nat × α))

/-- Takes another choice into account. A score that differs from itself counts for nothing. -/
def improveBest (best : Best α) (score : α) (choice : Nat × α) : Best α :=
  match best with
  | none => if score == score then some (score, [choice]) else none
  | some (least, choices) =>
    if score < least then some (score, [choice])
    else if score == least then some (least, choices ++ [choice])
    else best

variable [Model M V α]

omit [Scalar α] in
/-- The unassigned variables that have a value to take. -/
def openVariables (model : M) : Except Fault (List Nat) :=
  (List.range (Model.variableCount model)).filterM fun v => do
    if (← Model.assignment model v).isSome then return false
    return !(← Model.values model v).isEmpty

/-- The values of a variable of least score among those that are admitted. -/
def best (c : Construction α) (model : M) (v : Nat) (values : List V) (admitted : Nat → Bool) :
    Except Fault (Best α) :=
  values.zipIdx.foldlM (fun best (value, index) => do
    if !admitted index then return best
    let conflicts : α := Scalar.ofNat (← Model.conflicts model v value).length
    let delta ← Model.delta model v value
    let score := conflicts * c.config.conflictWeight + delta * c.config.valueWeight
    return improveBest best score (index, delta)) none

omit [Scalar α] [Model M V α] in
/-- Which values of a variable with a number of values may be chosen: those that are not tabu, or
all if all are. -/
def admitted (c : Construction α) (v count : Nat) (index : Nat) : Bool :=
  (List.range count).all (fun i => c.tabu.contains (v, i)) || !c.tabu.contains (v, index)

omit [Scalar α] [Model M V α] in
/-- A number below `n > 0` from the world's stream. -/
def drawBelow {S : Type} (n : Nat) : Act S M α Nat :=
  Act.onWorld (Attempt.focus (·.random) (fun w random => { w with random }) (draw n))

/-- Picks a random open variable and one of its best values. -/
def select : Act (Construction α) M α (Option (Proposal V α)) := do
  let model := (← Act.solution).model
  let openVariables ← openVariables model
  if openVariables.isEmpty then return none
  let v ← fetch openVariables (← drawBelow openVariables.length)
  let values ← Model.values model v
  let c ← Act.part
  let some (score, choices) ← c.best model v values (c.admitted v values.length) | return none
  let (index, delta) ← fetch choices (← drawBelow choices.length)
  let value ← fetch values index
  Act.change (remember · (v, index))
  Act.report .trace "construct" fun _ => [
    ("variable", .count v), ("value", .outlined (Model.outlineValue M value)),
    ("score", .number score)]
  return some (.move (.change ⟨v, some value, delta⟩))

instance : Strategy (Construction α) M V α where
  name _ := "construction"
  init := Act.change fun c => { c with tabu := [] }
  select := select
  bestSaved c := c
  resetScores c := c
  outline c := Outline.record "StandardConstruction" [
    ("config", c.config.outline), ("tabu", toString c.tabu.length)]

end Construction

end LocalSearch
