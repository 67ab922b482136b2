import LocalSearch.Config.Datum
import LocalSearch.Datum.Parts
import LocalSearch.Datum.Write
/-!
# Sections of the settings

The settings come in sections, each with its own record. What can be done with a record can be done
with a section given by its name.

* `Section`, `Section.Settings`: the sections and their records.
* `Section.ofProperties`, `Section.ofDatum?`, `Section.toDatum`, `Section.validate`: reading,
  writing and checking a record.
* `Section.summary`: a record with what follows from it.
-/

namespace LocalSearch

open Datum

/-- A section of the settings; `solver` holds all others. -/
inductive Section
  | general | sequence | hillClimber | deluge | annealing | search | construction | termination
  | solver
deriving Repr, DecidableEq

namespace Section

variable {α : Type} [Scalar α]

/-- The record of a section. -/
def Settings (α : Type) : Section → Type
  | general => GeneralConfig
  | sequence => SequenceConfig
  | hillClimber => HillClimberConfig
  | deluge => DelugeConfig α
  | annealing => AnnealingConfig α
  | search => SearchConfig
  | construction => ConstructionConfig α
  | termination => TerminationConfig
  | solver => SolverConfig α

/-- The section with a name. -/
def ofName? : String → Option Section
  | "general" => some general
  | "sequence" => some sequence
  | "hill_climber" => some hillClimber
  | "great_deluge" => some deluge
  | "simulated_annealing" => some annealing
  | "search" => some search
  | "construction" => some construction
  | "termination" => some termination
  | "solver" => some solver
  | _ => none

/-- Reads a section from properties. A time limit that is no duration is a fault, and comes after
every error. -/
def ofProperties (props : Properties) :
    (s : Section) → Except ConfigError (Except Fault (s.Settings α))
  | general => (GeneralConfig.ofProperties props).map .ok
  | sequence => (SequenceConfig.ofProperties props).map .ok
  | hillClimber => (HillClimberConfig.ofProperties props).map .ok
  | deluge => (DelugeConfig.ofProperties props).map .ok
  | annealing => (AnnealingConfig.ofProperties props).map .ok
  | search => (SearchConfig.ofProperties props).map .ok
  | construction => (ConstructionConfig.ofProperties props).map .ok
  | termination => TerminationConfig.ofProperties α props
  | solver => SolverConfig.ofProperties props

/-- Reads a section from structured data. -/
def ofDatum? (d : Datum α) : (s : Section) → Option (s.Settings α)
  | general => GeneralConfig.ofDatum? d
  | sequence => SequenceConfig.ofDatum? d
  | hillClimber => HillClimberConfig.ofDatum? d
  | deluge => DelugeConfig.ofDatum? d
  | annealing => AnnealingConfig.ofDatum? d
  | search => SearchConfig.ofDatum? d
  | construction => ConstructionConfig.ofDatum? d
  | termination => TerminationConfig.ofDatum? d
  | solver => SolverConfig.ofDatum? d

/-- Writes a section as structured data. -/
def toDatum : (s : Section) → s.Settings α → Datum α
  | general, c => GeneralConfig.toDatum c
  | sequence, c => SequenceConfig.toDatum c
  | hillClimber, c => HillClimberConfig.toDatum c
  | deluge, c => DelugeConfig.toDatum c
  | annealing, c => AnnealingConfig.toDatum c
  | search, c => SearchConfig.toDatum c
  | construction, c => ConstructionConfig.toDatum c
  | termination, c => TerminationConfig.toDatum c
  | solver, c => SolverConfig.toDatum c

/-- Refuses settings of which the whole search could make nothing; sections without such settings
pass. -/
def validate : (s : Section) → s.Settings α → Except ConfigError Unit
  | deluge, c => DelugeConfig.validate c
  | annealing, c => AnnealingConfig.validate c
  | search, c => SearchConfig.validate c
  | _, _ => .ok ()

end Section

/-! ## Summaries -/

variable {α : Type} [Scalar α]

/-- The settings, and whether states with certain numbers of unassigned variables may be saved. -/
def GeneralConfig.summary (counts : List Nat) (c : GeneralConfig) : Datum α :=
  c.toDatum.withFields [("allows_best", datum (counts.map c.allowsBest))]

/-- The settings, the choices under the names by which they are described, and what they mean. -/
def SequenceConfig.summary (c : SequenceConfig) : Datum α :=
  c.toDatum.withFields [("selection_type", text c.selectionType.outline),
    ("learning_method", text c.learningMethod.outline), ("reset_interval", ofNat c.resetInterval),
    ("allows_repeats", flag c.selectionType.allowsRepeats),
    ("uses_roulette", flag c.selectionType.usesRoulette)]

/-- The settings and the rates and lengths in effect. -/
def AnnealingConfig.summary (c : AnnealingConfig α) : Datum α :=
  c.toDatum.withFields [("effective_reheat_rate", number c.effectiveReheatRate),
    ("effective_restore_best_length_coef", number c.effectiveRestoreCoef)]

/-- The settings, the time limit as seconds and nanoseconds. -/
def TerminationConfig.summary (c : TerminationConfig) : Datum α :=
  c.toDatum.withFields [("timeout", datum (c.timeout.map fun d => (d.seconds, d.subseconds)))]

/-- The summary of every section. -/
def SolverConfig.summary (counts : List Nat) (c : SolverConfig α) : Datum α :=
  record [("general", c.general.summary counts), ("sequence", c.sequence.summary),
    ("hill_climber", c.hillClimber.toDatum), ("great_deluge", c.deluge.toDatum),
    ("simulated_annealing", c.annealing.summary), ("search", c.search.toDatum),
    ("construction", c.construction.toDatum), ("termination", c.termination.summary)]

/-- The settings of a section with what follows from them. -/
def Section.summary (counts : List Nat) : (s : Section) → s.Settings α → Datum α
  | general, c => GeneralConfig.summary counts c
  | sequence, c => SequenceConfig.summary c
  | annealing, c => AnnealingConfig.summary c
  | termination, c => TerminationConfig.summary c
  | solver, c => SolverConfig.summary counts c
  | s, c => s.toDatum c

end LocalSearch
