import LocalSearch.Outline
import LocalSearch.Scalar
/-!
# Notices

What the observers of a search were told, in the order in which they were told. Observers have
names; one without a name is not recorded.

* `Notice`: one call of an observer.
* `Notice.text`: the notice in one line.
-/

namespace LocalSearch

/-- One call of an observer, with the iteration of the solution at that moment where it is part of
the call. -/
inductive Notice (α : Type)
  /-- A listener of the solution: an iteration was counted. -/
  | updated (name : String) (iteration : Nat)
  /-- A listener of the solution: the best state was saved. -/
  | saved (name : String) (iteration : Nat)
  /-- A listener of the solution: the best state was put back. -/
  | restored (name : String) (iteration : Nat)
  /-- A listener of the solution: the best state was forgotten. -/
  | cleared (name : String) (iteration : Nat)
  /-- A hook: the search starts. -/
  | started (name : String) (iteration : Nat)
  /-- A hook: a proposal was committed and changed the total by `delta`. -/
  | assigned (name : String) (delta : α) (iteration : Nat)
  /-- A hook: the search was stopped. -/
  | stopped (name : String) (iteration : Nat)
  /-- A hook: the search met its termination condition. -/
  | finished (name : String) (iteration : Nat)
  /-- A hook: the search failed. -/
  | failed (name : String) (message : String) (iteration : Nat)
  /-- A guard: a proposal with this known effect awaits its answer. -/
  | asked (name : String) (delta : Option α) (iteration : Nat)
  /-- An extension: the search is about to start. -/
  | extensionInit (name : String)
  /-- An extension: a proposal was committed and changed the total by `delta`. -/
  | extensionAssigned (name : String) (delta : α)
  /-- An extension: the search has ended. -/
  | extensionDone (name : String)
deriving Repr, DecidableEq

namespace Notice

/-- A notice at an iteration. -/
def textAt (name what : String) (iteration : Nat) : String :=
  name ++ what ++ "@" ++ toString iteration

/-- The notice in one line: who was told what, and at which iteration. -/
def text {α : Type} [Scalar α] : Notice α → String
  | updated name iteration => textAt name ":updated" iteration
  | saved name iteration => textAt name ":saved" iteration
  | restored name iteration => textAt name ":restored" iteration
  | cleared name iteration => textAt name ":cleared" iteration
  | started name iteration => textAt name ":start" iteration
  | assigned name delta iteration =>
    textAt name (":assigned(" ++ Scalar.display delta ++ ")") iteration
  | stopped name iteration => textAt name ":stop" iteration
  | finished name iteration => textAt name ":finish" iteration
  | failed name message iteration => textAt name (":failure(" ++ message ++ ")") iteration
  | asked name delta iteration =>
    textAt name ("?" ++ Outline.optional Scalar.outline delta) iteration
  | extensionInit name => name ++ ":init"
  | extensionAssigned name delta => name ++ ":after(" ++ Scalar.display delta ++ ")"
  | extensionDone name => name ++ ":done"

end Notice

end LocalSearch
