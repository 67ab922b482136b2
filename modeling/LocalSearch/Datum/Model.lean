import LocalSearch.Datum.Parts
import LocalSearch.Datum.Write
import LocalSearch.Model.Penalty
import LocalSearch.Model.Plain
import LocalSearch.Model.Timetable
/-!
# Models as structured data

* `Penalty.ofDatum`, `Timetable.ofDatum`: a model from its description.
* `DatumModel`: models whose values can be read and written.

A penalty table is given by `table` and perhaps `assigned`, a list of options with `null` for none.
A timetable is given by `events`, or by `generate` with the sizes and the seed of a random one;
`first_fit` then places what fits, and `assign` lists placements of single events.
-/

namespace LocalSearch

open Datum

variable {α : Type} [Scalar α]

/-- Models whose values have a form as structured data. -/
class DatumModel (M : Type) (V α : outParam Type) extends ToDatum α V where
  /-- A value for a variable. -/
  readValue : M → Nat → Datum α → Except Fault V

/-! ## Penalty tables -/

namespace Penalty

/-- A table with its assignment. -/
def ofDatum (d : Datum α) : Except Fault (Penalty α) :=
  let table := (d.itemsAt "table").map fun row => row.items.map toNumber
  if d.has "assigned" then ofAssigned table ((d.itemsAt "assigned").map count?)
  else .ok (ofTable table)

instance : DatumModel (Penalty α) Nat α := ⟨fun _ _ d => .ok d.toInt.toNat⟩

instance : DatumModel (Plain (Penalty α)) Nat α := ⟨fun _ _ d => .ok d.toInt.toNat⟩

end Penalty

/-! ## Timetables -/

/-- The period, the room and the penalty of a placement. -/
def Placement.ofDatum (d : Datum α) : Placement α :=
  ⟨d.nat 0, d.nat 1, d.num 2⟩

instance : ToDatum α (Placement α) := ⟨fun p => datum (p.period, p.room, p.penalty)⟩

/-- The name, the curriculum and the domain of an event. -/
def Course.ofDatum (d : Datum α) : Course α :=
  ⟨d.str "name", d.nat "curriculum", (d.itemsAt "domain").map Placement.ofDatum⟩

instance : ToDatum α (Course α) := 
  ⟨fun e => .list [text e.name, ofNat e.curriculum, datum e.domain]⟩

namespace Timetable

/-- A placement, given by its parts or by its index in the domain of the event. -/
def readPlacement (t : Timetable α) (v : Nat) : Datum α → Except Fault (Placement α)
  | .list parts => .ok (.ofDatum (.list parts))
  | d => do fetch (← fetch t.events v).domain d.toInt.toNat

instance : DatumModel (Timetable α) (Placement α) α := ⟨readPlacement⟩

/-- A timetable with what is placed in it. -/
def ofDatum (d : Datum α) : Except Fault (Timetable α) := do
  let size := d.part "generate"
  let t : Timetable α :=
    if d.has "generate" then
      generate (size.nat 0) (size.nat 1) (size.nat 2) (size.nat 3) (size.nat 4).toUInt64
    else ofEvents ((d.itemsAt "events").map Course.ofDatum)
  let t ← if d.bool "first_fit" then t.assignFirstFit else pure t
  (d.itemsAt "assign").foldlM (fun t placed => do
    Model.assign t (placed.nat 0) (← t.readPlacement (placed.nat 0) (placed.part 1))) t

end Timetable

end LocalSearch
