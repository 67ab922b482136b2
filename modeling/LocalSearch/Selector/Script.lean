import LocalSearch.Selector.Basic
/-!
# Scripted generators

Generators that propose what a script says, whatever the search does. They stand in for the
generators of an application and fail on request.
-/

namespace LocalSearch

/-- What a scripted generator does. -/
inductive Script (V α : Type)
  /-- Never proposes anything. -/
  | silent
  /-- Proposes one change every time. -/
  | fixed (var : Nat) (value : V)
  /-- Proposes one change every time and leaves its effect to the commit. -/
  | lazy (var : Nat) (value : V)
  /-- Proposes the changes of a list, or nothing where the list says so, over and over again. -/
  | cycle (items : List (Option (Nat × V)))
  /-- Proposes an exchange if the model can evaluate it. -/
  | swap (first second : Nat)
  /-- Proposes that a variable loses its value and claims the effect. -/
  | unassign (var : Nat) (delta : α)
  /-- Proposes nothing and from a call on fails. -/
  | fail (start : Nat) (failure : Failure)
  /-- Cannot be prepared. -/
  | failInit (failure : Failure)

/-- A script and the number of calls since the search was prepared. -/
structure Scripted (V α : Type) where
  script : Script V α
  calls : Nat

namespace Scripted

variable {M V α : Type} [Model M V α]

/-- A generator that has not been called. -/
def of (script : Script V α) : Scripted V α := ⟨script, 0⟩

/-- The proposal of a script at a call, counted from zero. -/
def answer (model : M) (calls : Nat) : Script V α → Except Failure (Option (Candidate V α))
  | .silent => return none
  | .fixed v value => do return some (.eager (.change (← ChangeMove.of model v value)))
  | .lazy v value => return some (.lazy ⟨v, value⟩)
  | .cycle items =>
    match items[calls % items.length]? with
    | some (some (v, value)) => do
      return some (.eager (.change (← ChangeMove.of model v value)))
    | _ => return none
  | .swap first second => do
    return (← SwapMove.of? model first second).map fun swap => .eager (.swap swap)
  | .unassign v delta => return some (.eager (.change ⟨v, none, delta⟩))
  | .fail n failure => if n ≤ calls then throw failure else return none
  | .failInit _ => return none

instance : MoveGenerator (Scripted V α) M V α where
  init _ := do
    modify fun g => ⟨g.script, 0⟩
    if let .failInit failure := (← get).script then throw failure
  propose model := do
    let (g, random) ← get
    set (({ g with calls := g.calls + 1 } : Scripted V α), random)
    answer model g.calls g.script
  setHillClimbing _ g := g
  outline _ := "Scripted"

end Scripted

end LocalSearch
