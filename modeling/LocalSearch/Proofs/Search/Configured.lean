import LocalSearch.Proofs.Exact
import LocalSearch.Proofs.Search.Completeness
import LocalSearch.Solver
/-!
# Searches of a configured solver

What a configuration builds, and what that means for the searches on the models of this library.

* `Registry.exists_of_buildStrategy`: what a configuration builds.
* `Registry.rotates_buildStrategy`: the stages of a configured orchestrator stand for acceptance
  phases.
* `Solver.Configured`: what a solver from a configuration has; `Solver.configured_of_ofProperties`.
* `Solver.complete_absorbing`: complete assignments stay complete.
-/

namespace LocalSearch

variable {S X α : Type}

namespace Registry

/-- A stage that is there only if it is enabled. -/
theorem of_optionalStage {ε β γ : Type} {enabled : Prop} [Decidable enabled] {P : Stage S → Prop}
    {build : Except ε β} {stage : β → Stage S} {f : List (Stage S) → Except ε γ} {c : γ}
    (hstage : ∀ b, build = .ok b → P (stage b))
    (h : (if enabled then do
        let b ← build
        let stages ← pure [stage b]
        f stages
      else do
        let stages ← pure []
        f stages) = .ok c) :
    ∃ stages, (∀ s ∈ stages, P s) ∧ f stages = .ok c := by
  split at h
  · obtain ⟨b, hb, h⟩ := bind_eq_ok_iff.1 h
    refine ⟨[stage b], fun s hs => ?_, h⟩
    rw [List.mem_singleton.1 hs]
    exact hstage b hb
  · exact ⟨[], fun s hs => absurd hs List.not_mem_nil, h⟩

variable [Scalar α] {r : Registry X} {props : Properties}

variable (r props) in
/-- The strategy is the one that the configuration describes for its kind. -/
def Builds : BasicStrategy (Generator X α) α → Prop
  | .hillClimbing s => r.buildHillClimbing props = .ok s
  | .greatDeluge s => r.buildGreatDeluge props = .ok s
  | .simulatedAnnealing s => r.buildSimulatedAnnealing props = .ok s
  | .group s => r.buildGroup props = .ok s
  | .construction s => buildConstruction props = .ok s

variable (r props) in
/-- The stage stands for an acceptance phase and has a strategy from the configuration. -/
def BuildsStage (stage : Stage (BasicStrategy (Generator X α) α)) : Prop :=
  stage.phase.IsAcceptance ∧ r.Builds props stage.strategy

/-- An orchestrator from a configuration has construction and stages from it. -/
theorem exists_of_buildOrchestrator {o : Orchestrator (BasicStrategy (Generator X α) α) α}
    (h : r.buildOrchestrator props = .ok o) : ∃ construction stages restartLimit,
      buildConstruction props = .ok construction ∧
        (∀ stage ∈ stages, r.BuildsStage props stage) ∧
        Orchestrator.of construction stages restartLimit = .ok o := by
  unfold buildOrchestrator at h
  obtain ⟨search, -, h⟩ := bind_eq_ok_iff.1 h
  obtain ⟨hillClimbing, hhill, h⟩ := of_optionalStage (P := r.BuildsStage props)
    (fun _ hb => by exact ⟨⟨nofun, nofun⟩, hb⟩) h
  obtain ⟨greatDeluge, hdeluge, h⟩ := of_optionalStage (P := r.BuildsStage props)
    (fun _ hb => by exact ⟨⟨nofun, nofun⟩, hb⟩) h
  obtain ⟨annealing, hannealing, h⟩ := of_optionalStage (P := r.BuildsStage props)
    (fun _ hb => by exact ⟨⟨nofun, nofun⟩, hb⟩) h
  obtain ⟨construction, hconstruction, h⟩ := bind_eq_ok_iff.1 h
  -- the three lists hold the enabled stages
  refine ⟨construction, _, _, hconstruction, fun s hs => ?_, h⟩
  rcases List.mem_append.1 hs with hs | hs
  · rcases List.mem_append.1 hs with hs | hs
    · exact hhill s hs
    · exact hdeluge s hs
  · exact hannealing s hs

/-- A configured strategy is an orchestrator, or one of the strategies that are no orchestrators. -/
theorem exists_of_buildStrategy {t : AnyStrategy (Generator X α) α}
    (h : r.buildStrategy props = .ok t) :
    (∃ o, r.buildOrchestrator props = .ok o ∧ t = .orchestrator o) ∨
      ∃ s, r.Builds props s ∧ t = .basic s := by
  unfold buildStrategy at h
  obtain ⟨search, -, h⟩ := bind_eq_ok_iff.1 h
  cases hkind : r.kind? search.strategy with
  | none => simp [hkind] at h
  | some kind =>
    simp only [hkind] at h
    cases kind with
    | orchestrator =>
      obtain ⟨o, ho, rfl⟩ := map_eq_ok_iff.1 h
      exact .inl ⟨o, ho, rfl⟩
    | group =>
      obtain ⟨s, hs, rfl⟩ := map_eq_ok_iff.1 h
      exact .inr ⟨.group s, hs, rfl⟩
    | hillClimbing =>
      obtain ⟨s, hs, rfl⟩ := map_eq_ok_iff.1 h
      exact .inr ⟨.hillClimbing s, hs, rfl⟩
    | greatDeluge =>
      obtain ⟨s, hs, rfl⟩ := map_eq_ok_iff.1 h
      exact .inr ⟨.greatDeluge s, hs, rfl⟩
    | simulatedAnnealing =>
      obtain ⟨s, hs, rfl⟩ := map_eq_ok_iff.1 h
      exact .inr ⟨.simulatedAnnealing s, hs, rfl⟩

theorem rotates_buildOrchestrator {o : Orchestrator (BasicStrategy (Generator X α) α) α}
    (h : r.buildOrchestrator props = .ok o) : o.Rotates := by
  obtain ⟨construction, stages, restartLimit, -, hstages, h⟩ := exists_of_buildOrchestrator h
  exact Orchestrator.rotates_of (fun s hs => (hstages s hs).1) h

/-- Whatever kind of strategy the configuration names. -/
theorem rotates_buildStrategy {t : AnyStrategy (Generator X α) α}
    (h : r.buildStrategy props = .ok t) : t.Rotates := by
  obtain ⟨o, ho, rfl⟩ | ⟨s, -, rfl⟩ := exists_of_buildStrategy h
  · exact rotates_buildOrchestrator ho
  · trivial

end Registry

/-- The parts of an engine from a configuration. -/
structure Engine.Built {M V : Type} [Scalar α] [Model M V α] (r : Registry X) (props : Properties)
    (e : Engine (AnyStrategy (Generator X α) α) M V α) : Prop where
  strategy : r.buildStrategy props = .ok e.strategy
  termination : Termination.ofProperties α props = .ok (.ok e.termination)
  general : e.comparator = .general
  extensions : e.extensions = .none

theorem Engine.built_of_ofProperties {M V : Type} [Scalar α] [Model M V α] {r : Registry X}
    {props : Properties} {e : Engine (AnyStrategy (Generator X α) α) M V α} {seed : Option Nat}
    (h : ofProperties r props = .ok (e, seed)) : e.Built r props := by
  obtain ⟨general, -, h⟩ := bind_eq_ok_iff.1 h
  obtain ⟨strategy, hstrategy, h⟩ := bind_eq_ok_iff.1 h
  obtain ⟨reading, hreading, h⟩ := bind_eq_ok_iff.1 h
  obtain ⟨termination, htermination, h⟩ := bind_eq_ok_iff.1 h
  cases h
  refine ⟨?_, ?_, rfl, rfl⟩
  · exact mapError_eq_ok_iff.1 hstrategy
  · have hread : Termination.ofProperties α props = .ok reading := mapError_eq_ok_iff.1 hreading
    have htermination : reading = .ok termination := mapError_eq_ok_iff.1 htermination
    rw [hread, htermination]

namespace Solver

variable {G M V : Type} [Scalar α] [Model M V α] [Model.Tabular M]

/-- A solver whose engine was built from a configuration, and whose snapshot describes the
assignment that the model keeps. The limit on unassigned variables, the observers, the termination
condition and everything that a configuration says about the parts of the strategy are left open. -/
structure Configured (s : Solver (AnyStrategy G α) M V α) : Prop where
  engine : ∃ e, s.engine = some e ∧ e.strategy.Rotates ∧ e.comparator = .general
  recorded : s.world.solution.Recorded

theorem configured_of_ofProperties {model : M} {props : Properties}
    {r : Registry X} {entropy : UInt64} {clock : Nat → α} {threshold : Option Level}
    {s : Solver (AnyStrategy (Generator X α) α) M V α}
    (h : ofProperties model props r entropy clock threshold = .ok s) : s.Configured := by
  obtain ⟨⟨engine, seed⟩, hengine, h⟩ := bind_eq_ok_iff.1 h
  cases h
  have hbuilt := Engine.built_of_ofProperties hengine
  exact ⟨⟨engine, rfl, Registry.rotates_buildStrategy hbuilt.strategy, hbuilt.general⟩,
    fun _ hbest => by cases hbest⟩

/-- Complete assignments of independent penalties, and of timetables without clashes, stay complete
in every search with the generators of this library. -/
theorem complete_absorbing :
    (∀ s : Solver (AnyStrategy (Generator Empty α) α) (Penalty α) Nat α,
      s.Configured → s.StaysComplete) ∧
    ∀ s : Solver (AnyStrategy (Generator Empty α) α) (Timetable α) (Placement α) α,
      s.Configured → s.world.solution.model.hasHardConflicts = .ok false → s.StaysComplete := by
  constructor
  · rintro s ⟨⟨e, hengine, hstrategy, hgeneral⟩, hrecorded⟩
    exact staysComplete Generator.proposes_fits hengine hstrategy hgeneral
      (Penalty.clashFree _ _) hrecorded
  · rintro s ⟨⟨e, hengine, hstrategy, hgeneral⟩, hrecorded⟩ hconflicts
    exact staysComplete Generator.proposes_fits hengine hstrategy hgeneral
      (Timetable.clashFree_of_hasHardConflicts hconflicts) hrecorded

/-- Hill climbing by changes of single variables, on two variables with two options and one. -/
def climber : Solver (AnyStrategy (Generator Empty ℚ) ℚ) (Penalty ℚ) Nat ℚ :=
  of (.ofSolution (.ofModel ⟨[[0, 1], [0]], [some 1, some 0], none, 0⟩) (.standard 0) none)
    (.of (.basic (.hillClimbing (.of
      ⟨[.of "change" (.basic (.change false)) 0], .fresh 1, {}, false⟩ 10))))
    fun _ => 0

/-- The climber before the opening of its search. -/
def climbing : Solver (AnyStrategy (Generator Empty ℚ) ℚ) (Penalty ℚ) Nat ℚ :=
  climber.start.toOption.getD climber

theorem complete_absorbing_climber :
    climber.Configured ∧ climber.start = .ok climbing ∧ climbing.work.BeforePass ∧
    Model.unassignedCount climbing.work.world.solution.model = 0 ∧ climbing.work.work.BeforePass ∧
    climbing.work.world.solution.isBestComplete = true ∧
    Model.unassignedCount climbing.work.work.world.solution.model = 0 := by
  have hconfigured : climber.Configured := ⟨⟨_, rfl, trivial, rfl⟩, fun _ hbest => by cases hbest⟩
  have hopened : climbing.work.BeforePass := beforePass_of_stage 1 (by decide +kernel)
  have hpassed : climbing.work.work.BeforePass := beforePass_of_stage 2 (by decide +kernel)
  have hzero : Model.unassignedCount climbing.work.world.solution.model = 0 := by decide +kernel
  exact ⟨hconfigured, rfl, hopened, hzero, hpassed,
    complete_absorbing.1 climber hconfigured climbing climbing.work climbing.work.work rfl
      (.single (.work _)) hopened hzero (.single (.work _)) hpassed⟩

end Solver

end LocalSearch
