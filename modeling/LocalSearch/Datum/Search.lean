import LocalSearch.Datum.Write
import LocalSearch.Journal
import LocalSearch.Schedule.Annealing
import LocalSearch.Schedule.Deluge
import LocalSearch.Sequence.Chain
/-!
# Results as structured data

What a search reports and learns, as structured data: dictionaries, events, commits, snapshots,
scores, chains and the two schedules.
-/

namespace LocalSearch

open Datum

variable {α : Type}

/-- A record of texts. -/
def Dictionary.toDatum (d : Dictionary) : Datum α :=
  record (d.entries.map fun (key, value) => (key, text value))

instance : ToDatum α Dictionary := ⟨Dictionary.toDatum⟩

/-- The value of a field; one given by its text is a text. -/
def FieldValue.toDatum : FieldValue α → Datum α
  | text s => Datum.text s
  | number x => Datum.number x
  | count n => ofNat n
  | integer i => Datum.integer i
  | flag b => Datum.flag b
  | shown s => Datum.text s
  | outlined s => Datum.text s

/-- The level and the fields of an event, less a time measured in seconds. -/
def Event.toDatum (e : Event α) : Datum α :=
  let isTime : String × FieldValue α → Bool
    | ("time", .number _) => true
    | _ => false
  record (("level", text e.level.name) ::
    (e.fields.filter fun field => !isTime field).map fun (name, value) => (name, value.toDatum))

instance : ToDatum α (Event α) := ⟨Event.toDatum⟩

/-- The parts of a snapshot. -/
def Snapshot.toDatum (s : Snapshot α) : Datum α :=
  record [("iteration", ofNat s.iteration), ("time", number s.time), ("value", number s.value),
    ("complete", flag s.complete), ("info", s.info.toDatum),
    ("perturbation_penalty", number s.perturbation)]

instance : ToDatum α (Snapshot α) := ⟨Snapshot.toDatum⟩

/-- Both tables, row by row. -/
def Scores.toDatum (s : Scores α) : Datum α :=
  record [
    ("transitions", list (s.transitions.map fun row => list (row.map number))),
    ("outcomes", list (s.outcomes.map fun (continuedScore, endedScore) =>
      list [number continuedScore, number endedScore]))]

instance : ToDatum α (Scores α) := ⟨Scores.toDatum⟩

variable [Scalar α]

/-- How a commit ended, with the difference it made or would have made. -/
def Commit.toDatum (c : Commit α) : Datum α :=
  datum (if c.isApplied then "applied" else "rejected", c.delta)

instance : ToDatum α (Commit α) := ⟨Commit.toDatum⟩

/-- The selectors of a chain, what follows from them, and the row of the transition table. -/
instance : ToDatum α Chain :=
  ⟨fun c => datum (c.selectors, c.selectors.length, c.selectors.isEmpty, c.previousRow)⟩

/-- The bound and the counters of a water level. -/
def DelugeSchedule.toDatum (s : DelugeSchedule α) : Datum α :=
  datum (s.bound, s.idle, s.iteration, s.lastImproving, s.coolInAccept)

instance : ToDatum α (DelugeSchedule α) := ⟨DelugeSchedule.toDatum⟩

/-- The temperature, the lengths of its periods, the counts of the current one, and what the last
iteration did. -/
def AnnealingSchedule.toDatum (s : AnnealingSchedule α) : Datum α :=
  let stats := s.stats
  Datum.record [("temperature", number s.temperature),
    ("lengths", datum (s.temperatureLength, s.reheatLength, s.restoreBestLength)),
    ("iteration", ofNat s.iteration),
    ("stats", datum (stats.improving, stats.zero, stats.worsening, stats.total)),
    ("reheated", flag s.justReheated), ("restored", flag s.justRestored)]

instance : ToDatum α (AnnealingSchedule α) := ⟨AnnealingSchedule.toDatum⟩

end LocalSearch
