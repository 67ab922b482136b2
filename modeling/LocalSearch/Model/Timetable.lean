import LocalSearch.Model.Basic
import LocalSearch.Outline
import LocalSearch.Random.Draw
/-!
# Timetables

Events are placed into slots, a slot being a period and a room.

* No slot holds two events, and no two events of one curriculum share a period
  (`Timetable.Clash`).
* The total value is the sum of the penalties of the placements, and one for every pair of events
  of one curriculum in consecutive periods.

Placing an event takes the events that clash with it out of the timetable (`Timetable.place`).
-/

namespace LocalSearch

/-- Where an event is held, and the penalty of holding it there. -/
structure Placement (α : Type) where
  period : Nat
  room : Nat
  penalty : α

namespace Placement

variable {α : Type}

/-- Whether two placements are in the same period and room. -/
def sameSlot (p q : Placement α) : Bool :=
  p.period == q.period && p.room == q.room

variable [Scalar α]

/-- Whether two placements agree in all parts. -/
def same (p q : Placement α) : Bool :=
  p.period == q.period && p.room == q.room && p.penalty == q.penalty

def outline (p : Placement α) : String :=
  Outline.record "Placement" [
    ("period", toString p.period), ("room", toString p.room),
    ("penalty", Scalar.outline p.penalty)]

end Placement

/-- An event, the curriculum it belongs to and the placements it may have. -/
structure Course (α : Type) where
  name : String
  curriculum : Nat
  domain : List (Placement α)

/-- Events with their placements. -/
structure Timetable (α : Type) where
  events : List (Course α)
  assigned : List (Option (Placement α))
  best : Option (List (Option (Placement α)))

namespace Timetable

variable {α : Type}

/-- A timetable in which nothing is placed. -/
def ofEvents (events : List (Course α)) : Timetable α :=
  ⟨events, events.map fun _ => none, none⟩

/-- Whether two different events with these placements violate a hard constraint. -/
def clash (e : Course α) (p : Placement α) (f : Course α) (q : Placement α) : Bool :=
  q.sameSlot p || (f.curriculum == e.curriculum && q.period == p.period)

/-- The other events of an assignment that clash with placing event `v` at `p`. -/
def conflictsIn (t : Timetable α) (assigned : List (Option (Placement α))) (v : Nat)
    (p : Placement α) : Except Fault (List Nat) := do
  let event ← fetch t.events v
  return (t.events.zip assigned).zipIdx.filterMap fun ((other, placed), i) =>
    match placed with
    | none => none
    | some q => if i ≠ v ∧ clash event p other q then some i else none

/-- An assignment with event `v` placed at `p` and all events that clash taken out. -/
def place (t : Timetable α) (assigned : List (Option (Placement α))) (v : Nat)
    (p : Placement α) : Except Fault (List (Option (Placement α))) := do
  let out ← t.conflictsIn assigned v p
  store (out.foldl (fun assigned other => assigned.set other none) assigned) v (some p)

/-- Whether some placed event clashes with another one. -/
def hasHardConflicts (t : Timetable α) : Except Fault Bool :=
  t.assigned.zipIdx.anyM fun (placed, v) =>
    match placed with
    | none => return false
    | some p => return !(← t.conflictsIn t.assigned v p).isEmpty

/-- Puts event `v` at the first placement of its domain that clashes with nothing, if there is
one. -/
def fitOne (t : Timetable α) (v : Nat) : Except Fault (Timetable α) := do
  let event ← fetch t.events v
  match ← event.domain.findM? fun p => return (← t.conflictsIn t.assigned v p).isEmpty with
  | none => return t
  | some p => return { t with assigned := ← store t.assigned v (some p) }

/-- Puts the events in order at their first placements that clash with nothing. -/
def assignFirstFit (t : Timetable α) : Except Fault (Timetable α) :=
  (List.range t.events.length).foldlM fitOne t

/-- The number of events without a placement. -/
def openCount (assigned : List (Option (Placement α))) : Nat :=
  (assigned.filter Option.isNone).length

/-- The pairs of placed events of one curriculum in consecutive periods. -/
def adjacentPairs : List (Course α × Option (Placement α)) → Nat
  | [] => 0
  | (_, none) :: rest => adjacentPairs rest
  | (e, some p) :: rest =>
    (rest.filter fun (f, placed) => match placed with
      | none => false
      | some q =>
        e.curriculum == f.curriculum && (p.period == q.period + 1 || q.period == p.period + 1)).length
      + adjacentPairs rest

/-- `events` events over `periods * rooms` slots in `curricula` curricula, every placement with a
random penalty below five. -/
def generate [Scalar α] (events periods rooms curricula : Nat) (seed : UInt64) : Timetable α :=
  let slots := (List.range periods).flatMap fun period =>
    (List.range rooms).map fun room => (period, room)
  let draw (random : Random.Stream) (slot : Nat × Nat) : Placement α × Random.Stream :=
    let (penalty, random) := random.belowPositive 5
    (⟨slot.1, slot.2, Scalar.ofNat penalty⟩, random)
  let drawAll (random : Random.Stream) : List (Placement α) × Random.Stream :=
    let (drawn, random) := slots.foldl (fun (drawn, random) slot =>
      let (p, random) := draw random slot
      (p :: drawn, random)) ([], random)
    (drawn.reverse, random)
  let (courses, _) := (List.range events).foldl (fun (courses, random) e =>
    let (domain, random) := drawAll random
    (⟨"E" ++ toString e, e % max curricula 1, domain⟩ :: courses, random))
    ([], Random.Stream.standard seed)
  ofEvents courses.reverse

variable [Scalar α]

/-- The sum of the penalties of the placements. -/
def preferences (assigned : List (Option (Placement α))) : α :=
  Scalar.sum (assigned.filterMap fun placed => placed.map Placement.penalty)

/-- The total value of an assignment. -/
def totalOf (t : Timetable α) (assigned : List (Option (Placement α))) : α :=
  preferences assigned + Scalar.ofNat (adjacentPairs (t.events.zip assigned))

/-- By how much the total changes when event `v` is placed at `p`. -/
def delta (t : Timetable α) (v : Nat) (p : Placement α) : Except Fault α := do
  return t.totalOf (← t.place t.assigned v p) - t.totalOf t.assigned

/-- By how much the total changes when two events exchange their slots, each with the penalty its
own domain gives to the other slot; `none` if a slot is not in the domain or something clashes. -/
def swapDelta (t : Timetable α) (a b : Nat) : Except Fault (Option α) := do
  let some p ← fetch t.assigned a | return none
  let some q ← fetch t.assigned b | return none
  let some newA := (← fetch t.events a).domain.find? (·.sameSlot q) | return none
  let some newB := (← fetch t.events b).domain.find? (·.sameSlot p) | return none
  let without := (t.assigned.set a none).set b none
  if !(← t.conflictsIn without a newA).isEmpty then return none
  let half := without.set a (some newA)
  if !(← t.conflictsIn half b newB).isEmpty then return none
  return some (t.totalOf (half.set b (some newB)) - t.totalOf t.assigned)

/-- The total value and the number of placed events. -/
def info (t : Timetable α) : Except Fault Dictionary :=
  let count := t.events.length
  return Dictionary.ofList [
    ("Assigned variables", toString (count - openCount t.assigned) ++ "/" ++ toString count),
    ("Total value", Scalar.display (t.totalOf t.assigned))]

/-- The placements of an assignment. -/
def outlinePlacements (assigned : List (Option (Placement α))) : String :=
  Outline.list (assigned.map (Outline.optional Placement.outline))

/-- All of the model in one line. -/
def outline (t : Timetable α) : String :=
  Outline.record "TimetableModel" [
    ("events", Outline.list (t.events.map fun e => Outline.record "Event" [
      ("name", Text.quoted e.name), ("curriculum", toString e.curriculum),
      ("domain", Outline.list (e.domain.map Placement.outline))])),
    ("assigned", outlinePlacements t.assigned),
    ("best", Outline.optional outlinePlacements t.best)]

instance : Model (Timetable α) (Placement α) α where
  variableCount t := t.events.length
  values t v := do return (← fetch t.events v).domain
  assignment t v := fetch t.assigned v
  assign t v p := do return { t with assigned := ← t.place t.assigned v p }
  -- the placements are taken out of the timetable while they are changed
  spoiled t := { t with assigned := [] }
  unassign t v := do return { t with assigned := ← store t.assigned v none }
  delta := delta
  conflicts t v p := t.conflictsIn t.assigned v p
  swapDelta := swapDelta
  unassignedCount t := openCount t.assigned
  totalValue t := .ok (t.totalOf t.assigned)
  saveBest t := { t with best := some t.assigned }
  restoreBest t := { t with assigned := t.best.getD (t.events.map fun _ => none) }
  clearBest t := { t with best := none }
  bestUnassignedCount t := (t.best.map openCount).getD t.events.length
  info := info
  extendedInfo t := do
    return (← t.info).insert "Preferences" (Scalar.display (preferences t.assigned))
  same := Placement.same
  outline := outline
  outlineValue := Placement.outline

end Timetable

end LocalSearch
