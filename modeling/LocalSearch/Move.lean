import LocalSearch.Model.Basic
import LocalSearch.Outline
import LocalSearch.Scalar
/-!
# Moves

Proposed changes of a model's assignment.

* `Move`: a change whose effect on the total value is known beforehand: one variable gets a value
  or loses it (`ChangeMove`), or two variables exchange their values (`SwapMove`).
* `LazyChange`: a change of one variable whose effect is measured on the changed model.
  `LazyChange.commit` makes it, asks a predicate, and takes it back if the answer is no.
* `Candidate`: what a generator proposes, one or the other.
* `Commit`: how committing ended, with the known or measured effect.
-/

namespace LocalSearch

/-- Gives a variable a value, or unassigns it. -/
structure ChangeMove (V α : Type) where
  var : Nat
  target : Option V
  /-- The change of the total value. -/
  delta : α

/-- Exchanges the values of two variables. -/
structure SwapMove (α : Type) where
  first : Nat
  second : Nat
  /-- The change of the total value. -/
  delta : α

/-- A change with a known effect. -/
inductive Move (V α : Type)
  | change (m : ChangeMove V α)
  | swap (m : SwapMove α)

/-- Gives a variable a value, with an effect yet to be measured. -/
structure LazyChange (V : Type) where
  var : Nat
  value : V

/-- What a generator proposes. -/
inductive Candidate (V α : Type)
  | eager (m : Move V α)
  | lazy (c : LazyChange V)

/-- How committing a change ended. -/
inductive Commit (α : Type)
  /-- The change stays. -/
  | applied (delta : α)
  /-- The change was taken back. -/
  | rejected (delta : α)

namespace Commit

variable {α : Type}

/-- The change of the total value while the change was made. -/
def delta : Commit α → α
  | applied d => d
  | rejected d => d

/-- Whether the change stays. -/
def isApplied : Commit α → Bool
  | applied _ => true
  | rejected _ => false

end Commit

variable {M V α : Type} [Model M V α]

namespace ChangeMove

/-- The move that gives a variable a value, with its effect on the model. -/
def of (model : M) (v : Nat) (value : V) : Except Fault (ChangeMove V α) := do
  return ⟨v, some value, ← Model.delta model v value⟩

/-- Makes the change. -/
def commit (m : ChangeMove V α) : Attempt M Unit :=
  match m.target with
  | some value => Model.put m.var value
  | none => Attempt.update (Model.unassign · m.var)

/-- The move in one line. -/
def outline [Scalar α] (M : Type) [Model M V α] (m : ChangeMove V α) : String :=
  Outline.record "SimpleNeighbour" [
    ("variable", toString m.var),
    ("value", Outline.optional (Model.outlineValue M) m.target),
    ("delta", Scalar.outline m.delta)]

end ChangeMove

namespace SwapMove

/-- The exchange of two different assigned variables, if the model can evaluate it. -/
def of? (model : M) (first second : Nat) : Except Fault (Option (SwapMove α)) := do
  if first = second then return none
  let some _ ← Model.assignment model first | return none
  let some _ ← Model.assignment model second | return none
  return (← Model.swapDelta model first second).map (SwapMove.mk first second)

/-- Exchanges the values as they are; nothing happens if one of the variables is unassigned. -/
def commit (m : SwapMove α) : Attempt M Unit := do
  let model ← get
  let a ← Model.assignment model m.first
  let b ← Model.assignment model m.second
  match a, b with
  | some a, some b =>
    Attempt.update (Model.unassign · m.first)
    Attempt.update (Model.unassign · m.second)
    Model.put m.first b
    Model.put m.second a
  | _, _ => return

/-- The move in one line. -/
def outline [Scalar α] (m : SwapMove α) : String :=
  Outline.record "SwapNeighbour" [
    ("first", toString m.first), ("second", toString m.second),
    ("delta", Scalar.outline m.delta)]

end SwapMove

namespace Move

/-- The change of the total value. -/
def delta : Move V α → α
  | change m => m.delta
  | swap m => m.delta

/-- Makes the change. -/
def commit : Move V α → Attempt M Unit
  | change m => m.commit
  | swap m => m.commit

/-- The move in one line. -/
def outline [Scalar α] (M : Type) [Model M V α] : Move V α → String
  | change m => m.outline M
  | swap m => m.outline

end Move

namespace LazyChange

variable [Scalar α]

/-- The values of the other variables in conflict with the change, in the order of the variables. -/
def displaced (c : LazyChange V) (model : M) : Except Fault (List (Nat × V)) := do
  let others := (← Model.conflicts model c.var c.value).filter (· ≠ c.var)
  let values ← others.mapM fun other => do
    return (← Model.assignment model other).map (other, ·)
  return values.filterMap id

/-- Makes the change and measures it: the total value afterwards, and by how much it changed. -/
def apply (c : LazyChange V) : Attempt M (α × α) := do
  let before ← Model.totalValue (← get)
  Model.put c.var c.value
  let after ← Model.totalValue (← get)
  return (after, after - before)

/-- Takes the change back: first the variable loses its value, then the displaced variables get
theirs back one after the other, and last the variable itself the one it had. -/
def undo (c : LazyChange V) (previous : Option V) (displaced : List (Nat × V)) :
    Attempt M Unit := do
  Attempt.update (Model.unassign · c.var)
  for (other, value) in displaced do
    Model.put other value
  if let some value := previous then
    Model.put c.var value

/-- Makes the change, shows the changed model, its total value and the difference to a predicate,
and takes the change back if the predicate refuses. -/
def commit (c : LazyChange V) (accept : M → α → α → Bool) : Attempt M (Commit α) := do
  let previous ← Model.assignment (← get) c.var
  let displaced ← c.displaced (← get)
  let (total, delta) ← c.apply
  if accept (← get) total delta then return .applied delta
  c.undo previous displaced
  return .rejected delta

omit [Scalar α] in
/-- The change in one line. -/
def outline (M : Type) [Model M V α] (c : LazyChange V) : String :=
  Outline.record "LazyChangeNeighbour" [
    ("variable", toString c.var), ("value", Model.outlineValue M c.value)]

end LazyChange

namespace Candidate

omit [Model M V α]

/-- The known change of the total value, `none` for a lazy candidate. -/
def delta? : Candidate V α → Option α
  | eager m => some m.delta
  | lazy _ => none

/-- Whether the effect is measured only when the change is made. -/
def isLazy : Candidate V α → Bool
  | eager _ => false
  | lazy _ => true

/-- The candidate in one line. -/
def outline [Scalar α] (M : Type) [Model M V α] : Candidate V α → String
  | eager m => Outline.tuple "Eager" [m.outline M]
  | lazy c => Outline.tuple "Lazy" [c.outline M]

end Candidate

end LocalSearch
