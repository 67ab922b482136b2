import LocalSearch.Datum.Search
import LocalSearch.Strategy.Kinds
/-!
# Strategies as structured data

What a strategy has come to: its schedules, its scores, its phase.
-/

namespace LocalSearch

open Datum

variable {G S α : Type} [Scalar α]

/-- The phase, the restarts and the phases of the rotation. -/
def Orchestrator.toDatum (o : Orchestrator S α) : Datum α :=
  record [("phase", text o.phase.display), ("restarts", ofNat o.restarts),
    ("rotation", datum (o.rotation.map Phase.outline))]

def BasicStrategy.toDatum : BasicStrategy G α → Datum α
  | hillClimbing h => record [("idle", ofNat h.idle),
      ("chain", datum h.heuristic.chain.selectors), ("scores", h.heuristic.sequence.scores.toDatum)]
  | greatDeluge d => record [("deluge", d.schedule.toDatum),
      ("scores", d.heuristic.sequence.scores.toDatum)]
  | simulatedAnnealing a => record [("annealing", a.schedule.toDatum),
      ("scores", a.heuristic.sequence.scores.toDatum)]
  | group g => record [("constructed", flag g.constructed), ("deluge", g.deluge.toDatum),
      ("annealing", datum g.annealing)]
  | construction c => record [("tabu_size", ofNat c.config.tabuSize)]

def AnyStrategy.toDatum : AnyStrategy G α → Datum α
  | basic s => s.toDatum
  | orchestrator o => o.toDatum

end LocalSearch
