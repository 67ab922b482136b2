import LocalSearch.Journal
import LocalSearch.Move
import LocalSearch.Random.Draw
import LocalSearch.Solution
/-!
# Worlds

What a search works on: the solution, the random stream, the journal of events, and the notices
given to observers. The operations of `Solution` become operations on a world by also telling the
solution's listeners.

* `World`: the four parts.
* `World.onModel`: an operation on the model.
* `World.update`, `World.saveBest`, `World.restoreBest`, `World.clearBest`.
-/

namespace LocalSearch

/-- What a search works on. -/
structure World (M α : Type) where
  solution : Solution M α
  random : Random.Stream
  journal : Journal α
  /-- The notices given so far, the last one first. -/
  notices : List (Notice α)

namespace World

variable {M V α β : Type}

/-- A world before the search: nothing reported and nobody told anything. -/
def ofSolution (solution : Solution M α) (random : Random.Stream) (threshold : Option Level) :
    World M α :=
  ⟨solution, random, Journal.fresh threshold, []⟩

/-- Gives notices. -/
def tell (w : World M α) (notices : List (Notice α)) : World M α :=
  { w with notices := notices.reverse ++ w.notices }

/-- The texts of the notices given so far, the first one first, and a world without them. -/
def takeNotices [Scalar α] (w : World M α) : List String × World M α :=
  (w.notices.reverse.map Notice.text, { w with notices := [] })

/-- The events reported so far, and a world without them. -/
def takeEvents (w : World M α) : List (Event α) × World M α :=
  (w.journal.events.toList, { w with journal := .fresh w.journal.threshold })

/-- Reports an event. -/
@[inline]
def report (w : World M α) (level : Level) (name : String)
    (fields : Unit → List (String × FieldValue α)) : World M α :=
  { w with journal := w.journal.record level name fields }

/-- An operation on the model. -/
def onModel (x : Attempt M β) : Attempt (World M α) β :=
  Attempt.focus (·.solution.model)
    (fun w model => { w with solution := { w.solution with model } }) x

variable [Model M V α] [Scalar α]

/-- Counts an iteration and tells the listeners. -/
def update (w : World M α) (time : α) : World M α :=
  let solution := w.solution.update time
  { w with solution }.tell (solution.notices .updated)

/-- Keeps the current state as the best one and tells the listeners. -/
def saveBest : Attempt (World M α) Unit := do
  Attempt.focus (·.solution) (fun w solution => { w with solution }) Solution.saveBest
  modify fun w => w.tell (w.solution.notices .saved)

/-- Goes back to the best state, if there is one, and tells the listeners. -/
def restoreBest (w : World M α) : World M α :=
  match w.solution.best with
  | none => w
  | some _ =>
    let solution := w.solution.restoreBest
    { w with solution }.tell (solution.notices .restored)

/-- Forgets the best state and tells the listeners. -/
def clearBest (w : World M α) : World M α :=
  let solution := w.solution.clearBest
  { w with solution }.tell (solution.notices .cleared)

end World

end LocalSearch
