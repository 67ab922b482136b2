import LocalSearch.Proofs.Search.Configured
import LocalSearch.Proofs.Selection.Clock
/-!
# The clock does not steer a search

The time reaches the solution with every pass, and from there the snapshots, the diagnostics, and
the strategy that learns from a move. Two runs of a configured solver that obey the same orders at
different times differ in nothing but these times, unless the configuration sets a time limit or
weighs moves by the time.

* `Engine.Untimed`: nothing in the engine decides by the time.
* `Engine.timeless_opening`, `Engine.twin_turn`, `Engine.twin_close`: the parts of a search.
* `Solver.Order`, `Solver.obey`, `Solver.run`: what can happen to a solver, and when.
* `Solver.course`: the proposals of a run and what became of them.
* `Solver.Beside.obey`: what one order preserves; `Solver.Beside.run`: what a run preserves.
-/

namespace LocalSearch

open Act
open Attempt (twin_forIn twin_get_bind twin_ite twin_lift_bind twin_modify twin_pure
  twin_set twin_throw twin_when)

variable {S M V α : Type}

/-! ## What decides on the end of a search and on its best state -/

/-- The rule compares states in the same way whatever their times are. -/
def Comparator.Timeless (c : Comparator M α) : Prop :=
  ∀ s t : Solution M α, s.Alike t → c.isBetter t = c.isBetter s

/-- The condition is no time limit. -/
def Condition.Untimed (c : Condition) : Prop :=
  ∀ limit, c ≠ .time limit

theorem Condition.Untimed.holds_eq [Scalar α] {c : Condition} (hc : c.Untimed) {s t : Solution M α}
    (h : s.Alike t) : c.holds t = c.holds s := by
  cases c with
  | bestComplete => exact h.isBestComplete
  | iterations limit =>
    unfold Condition.holds
    rw [h.totalIterations]
  | time limit => exact (hc limit rfl).elim

theorem Termination.holds_eq [Scalar α] {conditions : Termination} {s t : Solution M α}
    (hconditions : ∀ c ∈ conditions, c.Untimed) (h : s.Alike t) :
    conditions.holds t = conditions.holds s := by
  unfold Termination.holds
  rw [Bool.eq_iff_iff, List.any_eq_true, List.any_eq_true]
  exact exists_congr fun c => and_congr_right fun hc => by rw [(hconditions c hc).holds_eq h]

/-- A configuration without a time limit gives conditions that are no time limits. -/
theorem Termination.untimed_ofConfig {c : TerminationConfig} (htimeout : c.timeout = none) :
    ∀ condition ∈ ofConfig c, condition.Untimed := by
  rintro condition hmem limit rfl
  unfold ofConfig at hmem
  rw [htimeout] at hmem
  split at hmem
  · simp at hmem
  · simp at hmem

variable [Scalar α] [Model M V α]

theorem Comparator.timeless_general : (general : Comparator M α).Timeless := by
  intro s t h
  unfold general
  obtain ⟨hs, ht⟩ | ⟨b, c, hs, ht, hb⟩ := h.best_cases
  · simp only [hs, ht]
  · simp only [hs, ht, h.model, hb.value]

namespace Engine

/-- The strategy has a property, and nothing else in the engine decides by the time. -/
structure Untimed (F : S → Prop) (e : Engine S M V α) : Prop where
  strategy : F e.strategy
  comparator : e.comparator.Timeless
  termination : ∀ c ∈ e.termination, c.Untimed

variable {F : S → Prop} {β : Type}

omit [Scalar α] [Model M V α] in
theorem twin_onStrategy {x y : Act S M α β} (h : Twin F x y) :
    Twin (Untimed F) (onStrategy x : Act (Engine S M V α) M α β) (onStrategy y) :=
  twin_within h (fun _ he => he.strategy) fun _ _ he hs => { he with strategy := hs }

omit [Scalar α] [Model M V α] in
theorem timeless_tellHooks (notice : String → Notice α) :
    Timeless (Untimed F) (tellHooks notice : Act (Engine S M V α) M α Unit) := by
  refine twin_modify ?_
  rintro ⟨_, w⟩ ⟨e, v⟩ ⟨he, rfl, hw⟩
  exact ⟨he, rfl, hw.tell rfl⟩

omit [Scalar α] [Model M V α] in
theorem timeless_tellExtensions (notice : String → Notice α) :
    Timeless (Untimed F) (tellExtensions notice : Act (Engine S M V α) M α Unit) := by
  refine twin_modify ?_
  rintro ⟨_, w⟩ ⟨e, v⟩ ⟨he, rfl, hw⟩
  exact ⟨he, rfl, hw.tell rfl⟩

omit [Scalar α] [Model M V α] in
theorem timeless_initExtensions :
    Timeless (Untimed F) (onExtensions Extensions.init : Act (Engine S M V α) M α Unit) := by
  refine twin_within (G := Any) ?_ (fun _ _ => trivial) fun _ _ he _ => { he with }
  have htell (name : String) : Timeless Any
      (modify fun s => (s.1, s.2.tell [.extensionInit name]) : Act Extensions M α PUnit) := by
    refine twin_modify ?_
    rintro ⟨_, w⟩ ⟨e, v⟩ ⟨-, rfl, hw⟩
    exact ⟨trivial, rfl, hw.tell rfl⟩
  unfold Extensions.init
  refine twin_part_bind fun e _ => ?_
  refine Attempt.Twin.bind (twin_forIn _ fun x _ => ?_) fun _ => twin_pure _
  -- whether or not an extension listens, what is left to do is to look at its refusal
  cases x.refusal with
  | none => exact twin_when (htell x.name) fun _ => twin_pure _
  | some error => exact twin_when (htell x.name) fun _ => (twin_throw _).bind fun _ => twin_pure _

section

variable [Strategy S M V α] (hS : Strategy.Timeless M F)
include hS

/-- The state is kept as the best one in both runs, each with its own time. -/
theorem timeless_saveBest :
    Timeless (Untimed F) (saveBest : Act (Engine S M V α) M α Unit) := by
  unfold saveBest
  refine twin_solution_bind fun s t h => ?_
  dsimp only
  rw [h.model, h.isBestComplete]
  refine (twin_onWorld World.twin_saveBest).bind fun _ => ?_
  refine (twin_onStrategy (timeless_change hS.bestSaved)).bind fun _ => ?_
  refine twin_solution_bind fun s t h => ?_
  rw [h.iteration, h.bestValue, h.model]
  exact twin_when (twin_report rfl) fun _ => timeless_report _ _ _

theorem timeless_saveIfBetter :
    Timeless (Untimed F) (saveIfBetter : Act (Engine S M V α) M α Unit) := by
  unfold saveIfBetter
  refine twin_get_bind ?_
  rintro ⟨_, w⟩ ⟨e, v⟩ ⟨he, rfl, hw⟩
  dsimp only
  rw [hw.solution.model, he.comparator _ _ hw.solution]
  refine twin_ite (twin_lift_bind fun better _ => ?_) (twin_pure _)
  exact twin_ite (timeless_saveBest hS) (twin_pure _)

theorem timeless_announce (iteration : Nat) :
    Timeless (Untimed F) (announce iteration : Act (Engine S M V α) M α Bool) := by
  unfold announce
  refine (timeless_tellHooks _).bind fun _ => (timeless_saveIfBetter hS).bind fun _ => ?_
  refine twin_solution_bind fun s t h => ?_
  rw [h.model]
  exact twin_ite ((timeless_report _ _ _).bind fun _ => twin_pure _) (twin_pure _)

theorem timeless_opening :
    Timeless (Untimed F) (opening : Act (Engine S M V α) M α Bool) := by
  rw [opening_eq]
  refine (twin_onStrategy hS.init).bind fun _ => timeless_initExtensions.bind fun _ => ?_
  refine twin_get_bind ?_
  rintro ⟨_, w⟩ ⟨e, v⟩ ⟨he, rfl, hw⟩
  dsimp only
  rw [hw.solution.model, hw.solution.iteration, hw.journal.keeps]
  refine twin_ite (twin_lift_bind fun total _ => ?_) (timeless_announce hS _)
  exact (timeless_report _ _ _).bind fun _ => timeless_announce hS _

omit [Scalar α] [Model M V α] in
/-- The guards are asked about the same proposal in the same iteration, and remember it. -/
theorem timeless_select :
    Timeless (Untimed F) (select : Act (Engine S M V α) M α (Option (Proposal V α))) := by
  unfold select
  refine (twin_onStrategy hS.select).bind fun p? => ?_
  cases p? with
  | none => exact twin_pure _
  | some p =>
    refine twin_get_bind ?_
    rintro ⟨_, w⟩ ⟨e, v⟩ ⟨he, rfl, hw⟩
    dsimp only
    rw [hw.solution.iteration]
    refine (twin_set ⟨{ he with }, rfl, hw.tell rfl⟩).bind fun _ => ?_
    exact twin_lift_bind fun _ _ => twin_pure _

omit [Scalar α] [Model M V α] [Strategy S M V α] hS in
theorem twin_count (time time' : α) :
    Twin (Untimed F) (count time : Act (Engine S M V α) M α Unit) (count time') := by
  refine twin_modify ?_
  rintro ⟨_, w⟩ ⟨e, v⟩ ⟨he, rfl, hw⟩
  exact ⟨he, rfl, hw.update time time'⟩

theorem twin_commit (p : Proposal V α) (time time' : α) :
    Twin (Untimed F) (commit p time : Act (Engine S M V α) M α Unit) (commit p time') := by
  unfold commit
  refine twin_solution_bind fun s t h => ?_
  dsimp only
  rw [h.iteration]
  refine (twin_onWorld (World.twin_onModel _)).bind fun c => ?_
  refine (twin_count time time').bind fun _ => ?_
  cases c with
  | applied delta =>
    refine (timeless_report _ _ _).bind fun _ => twin_solution_bind fun s t h => ?_
    rw [h.iteration]
    exact (timeless_tellHooks _).bind fun _ => (timeless_tellExtensions _).bind fun _ =>
      timeless_saveIfBetter hS
  | rejected delta => exact timeless_report _ _ _

theorem twin_pass (time time' : α) :
    Twin (Untimed F) (pass time : Act (Engine S M V α) M α Unit) (pass time') := by
  unfold pass
  refine (timeless_select hS).bind fun p? => ?_
  cases p? with
  | some p => exact twin_commit hS p time time'
  | none =>
    refine twin_solution_bind fun s t h => ?_
    dsimp only
    rw [h.iteration]
    exact (timeless_report _ _ _).bind fun _ => twin_count time time'

theorem twin_turn (stop : Bool) (time time' : α) :
    Twin (Untimed F) (turn stop time : Act (Engine S M V α) M α (Option Ending))
      (turn stop time') := by
  unfold turn
  refine twin_ite (twin_pure _) (twin_get_bind ?_)
  rintro ⟨_, w⟩ ⟨e, v⟩ ⟨he, rfl, hw⟩
  dsimp only
  rw [Termination.holds_eq he.termination hw.solution]
  exact twin_ite (twin_pure _) ((twin_pass hS time time').bind fun _ => twin_pure _)

end

omit [Model M V α] in
theorem twin_close (ending : Ending) (state : String) (time time' : α) :
    Twin (Untimed F) (close ending state time : Act (Engine S M V α) M α Unit)
      (close ending state time') := by
  unfold close
  refine (timeless_tellExtensions _).bind fun _ => twin_solution_bind fun s t h => ?_
  rw [h.iteration, h.totalIterations, h.bestValue, h.bestIteration]
  cases ending with
  | stopped => exact (timeless_tellHooks _).bind fun _ => twin_report rfl
  | done => exact (timeless_tellHooks _).bind fun _ => twin_report rfl

omit [Scalar α] [Model M V α] in
theorem timeless_fail (failure : Failure) :
    Timeless (Untimed F) (fail failure : Act (Engine S M V α) M α Unit) := by
  unfold fail
  refine twin_solution_bind fun s t h => ?_
  dsimp only
  rw [h.iteration]
  exact (timeless_report _ _ _).bind fun _ => timeless_tellHooks _

/-- The next proposal, and what committing it comes to. -/
def offer [Strategy S M V α] : Act (Engine S M V α) M α (Option (Proposal V α × Commit α)) := do
  match ← select with
  | none => return none
  | some p => return some (p, ← Act.onWorld (World.onModel p.commit))

theorem timeless_offer [Strategy S M V α] (hS : Strategy.Timeless M F) :
    Timeless (Untimed F)
      (offer : Act (Engine S M V α) M α (Option (Proposal V α × Commit α))) := by
  unfold offer
  refine (timeless_select hS).bind fun p? => ?_
  cases p? with
  | none => exact twin_pure _
  | some p => exact (twin_onWorld (World.twin_onModel _)).bind fun _ => twin_pure _

end Engine

/-! ## Runs of a solver -/

namespace Solver

/-- What can happen to a solver. -/
inductive Order (V α : Type)
  /-- The worker makes a step. -/
  | work
  | start
  | stop
  /-- The engine is taken back from a worker that has ended. -/
  | takeBack
  /-- The observers are replaced. -/
  | observe (observers : Observers V α)

/-- The solver with other observers, also of a search that runs. -/
def watchedBy (observers : Observers V α) (s : Solver S M V α) : Solver S M V α :=
  { s with
    engine := s.engine.map fun e => { e with observers }
    worker := s.worker.map fun w => { w with engine := { w.engine with observers } } }

variable [Strategy S M V α]

/-- The solver after an order that is obeyed at some time. A start without an engine is refused. -/
def obey (s : Solver S M V α) (time : α) : Order V α → Solver S M V α
  | .work => work { s with clock := fun _ => time }
  | .start => s.start.toOption.getD s
  | .stop => s.stop
  | .takeBack => if s.isWorking then s else s.takeBack
  | .observe observers => s.watchedBy observers

/-- The solver after some orders, each with the time at which it is obeyed. -/
def run (s : Solver S M V α) (plan : List (Order V α × α)) : Solver S M V α :=
  plan.foldl (fun s (order, time) => s.obey time order) s

/-- The proposal that the next step of the worker commits, if it makes a pass, and what becomes of
it. -/
def upcoming (s : Solver S M V α) : Option (Proposal V α × Commit α) :=
  match s.worker with
  | some ⟨e, .passing _⟩ =>
    if s.stopRequested || e.termination.holds s.world.solution then none
    else
      match Engine.offer (e, s.world) with
      | .ok offer? _ => offer?
      | .error _ _ => none
  | _ => none

/-- What is upcoming before every order of a run. -/
def course (s : Solver S M V α) : List (Order V α × α) → List (Option (Proposal V α × Commit α))
  | [] => []
  | (order, time) :: plan => s.upcoming :: (s.obey time order).course plan

omit [Scalar α] [Model M V α] [Strategy S M V α] in
/-- The solvers differ only in the times in their worlds, and in their clocks. -/
structure Alike (s t : Solver S M V α) : Prop where
  world : s.world.Alike t.world
  state : t.state = s.state
  stopRequested : t.stopRequested = s.stopRequested
  engine : t.engine = s.engine
  worker : t.worker = s.worker

omit [Scalar α] [Model M V α] [Strategy S M V α] in
/-- The solvers are alike, and nothing in their engines decides by the time. -/
structure Beside (F : S → Prop) (s t : Solver S M V α) : Prop where
  alike : s.Alike t
  engine : ∀ e, s.engine = some e → e.Untimed F
  worker : ∀ w, s.worker = some w → w.engine.Untimed F

variable {F : S → Prop} {s t : Solver S M V α}

section

variable {e : Engine S M V α} {w v : World M α}

omit [Scalar α] [Model M V α] [Strategy S M V α] in
/-- Both workers go on in the same way. -/
theorem Beside.withWorker (h : Beside F s t) (he : e.Untimed F) (hw : w.Alike v)
    (stage : WorkerStage) :
    Beside F { s with world := w, worker := some ⟨e, stage⟩ }
      { t with world := v, worker := some ⟨e, stage⟩ } where
  alike := { h.alike with world := hw, worker := rfl }
  engine := h.engine
  worker := by
    rintro _ ⟨⟩
    exact he

omit [Scalar α] [Model M V α] [Strategy S M V α] in
theorem Beside.workerFails (h : Beside F s t) (he : e.Untimed F) (hw : w.Alike v)
    (failure : Failure) : Beside F (s.workerFails e w failure) (t.workerFails e v failure) := by
  rw [workerFails_eq, workerFails_eq]
  obtain ⟨he', hsame, hw'⟩ := (Engine.timeless_fail failure).after
    (s := (e, w)) (t := (e, v)) ⟨he, rfl, hw⟩
  dsimp only
  rw [hsame]
  exact h.withWorker he' hw' _

omit [Model M V α] [Strategy S M V α] in
theorem Beside.workerCloses (h : Beside F s t) (he : e.Untimed F) (hw : w.Alike v)
    (ending : Ending) (time time' : α) :
    Beside F (s.workerCloses e w ending time) (t.workerCloses e v ending time') := by
  rw [workerCloses_eq, workerCloses_eq]
  obtain ⟨he', hsame, hw'⟩ := (Engine.twin_close ending _ time time').after
    (s := (e, w)) (t := (e, v)) ⟨he, rfl, hw⟩
  dsimp only
  rw [hsame]
  exact h.withWorker he' hw' _

end

/-- Workers do the same, whatever their clocks say. -/
theorem Beside.work (hS : Strategy.Timeless M F) (h : Beside F s t) : Beside F s.work t.work := by
  cases hworker : s.worker with
  | none =>
    rw [work_of_none hworker, work_of_none (h.alike.worker.trans hworker)]
    exact h
  | some w =>
    obtain ⟨e, stage⟩ := w
    have he : e.Untimed F := h.worker _ hworker
    have hworker' := h.alike.worker.trans hworker
    have hstart : Act.Beside (Engine.Untimed F) (e, s.world) (e, t.world) :=
      ⟨he, rfl, h.alike.world⟩
    cases stage with
    | ended =>
      rw [work_of_ended hworker, work_of_ended hworker']
      exact h
    | closed state =>
      rw [work_of_closed hworker, work_of_closed hworker']
      have hended := h.withWorker he h.alike.world .ended
      exact { hended with alike := { hended.alike with state := rfl } }
    | opening =>
      obtain ⟨nothing, ⟨e', w⟩, ⟨_, v⟩, hrun, hrun', he', rfl, hw⟩ |
        ⟨failure, ⟨e', w⟩, ⟨_, v⟩, hrun, hrun', he', rfl, hw⟩ :=
        (Engine.timeless_opening hS).cases hstart
      · rw [work_of_opening_ok hworker hrun, work_of_opening_ok hworker' hrun']
        have hopened := h.withWorker he' hw (.passing 1)
        exact { hopened with alike := { hopened.alike with
          stopRequested := congrArg (· || nothing) h.alike.stopRequested } }
      · rw [work_of_opening_error hworker hrun, work_of_opening_error hworker' hrun']
        exact h.workerFails he' hw failure
    | passing pass =>
      have hturn := Engine.twin_turn hS s.stopRequested (s.clock pass) (t.clock pass)
      obtain ⟨ending?, ⟨e', w⟩, ⟨_, v⟩, hrun, hrun', he', rfl, hw⟩ |
        ⟨failure, ⟨e', w⟩, ⟨_, v⟩, hrun, hrun', he', rfl, hw⟩ := hturn.cases hstart
      · rw [← h.alike.stopRequested] at hrun'
        cases ending? with
        | none =>
          rw [work_of_turn_none hworker hrun, work_of_turn_none hworker' hrun']
          exact h.withWorker he' hw _
        | some ending =>
          rw [work_of_turn_some hworker hrun, work_of_turn_some hworker' hrun']
          exact h.workerCloses he' hw ending _ _
      · rw [← h.alike.stopRequested] at hrun'
        rw [work_of_turn_error hworker hrun, work_of_turn_error hworker' hrun']
        exact h.workerFails he' hw failure

/-- An order comes to the same at any time. -/
theorem Beside.obey (hS : Strategy.Timeless M F) (h : Beside F s t) (time time' : α)
    (order : Order V α) : Beside F (s.obey time order) (t.obey time' order) := by
  cases order with
  | work =>
    have hclocked : Beside F { s with clock := fun _ => time } { t with clock := fun _ => time' } :=
      { h with alike := { h.alike with } }
    exact hclocked.work hS
  | start =>
    unfold Solver.obey Solver.start
    dsimp only
    rw [h.alike.engine]
    cases hengine : s.engine with
    | none => exact h
    | some e =>
      have hstarted := h.withWorker (h.engine e hengine) h.alike.world .opening
      exact
        { hstarted with
          alike := { hstarted.alike with state := rfl, stopRequested := rfl, engine := rfl }
          engine := nofun }
  | stop => exact { h with alike := { h.alike with stopRequested := rfl } }
  | takeBack =>
    unfold Solver.obey Solver.isWorking Solver.takeBack
    dsimp only
    rw [h.alike.worker]
    split
    · exact h
    cases hworker : s.worker with
    | none => exact h
    | some w =>
      refine ⟨{ h.alike with engine := rfl, worker := rfl }, ?_, nofun⟩
      rintro _ ⟨⟩
      exact h.worker w hworker
  | observe observers =>
    refine ⟨{ h.alike with engine := ?_, worker := ?_ }, fun e he => ?_, fun w hw => ?_⟩
    · exact congrArg (Option.map _) h.alike.engine
    · exact congrArg (Option.map _) h.alike.worker
    · obtain ⟨e, hengine, rfl⟩ := Option.map_eq_some_iff.1 he
      exact { h.engine e hengine with }
    · obtain ⟨w, hworker, rfl⟩ := Option.map_eq_some_iff.1 hw
      exact { h.worker w hworker with }

/-- The next proposals are the same, and the same becomes of them. -/
theorem Beside.upcoming_eq (hS : Strategy.Timeless M F) (h : Beside F s t) :
    t.upcoming = s.upcoming := by
  unfold upcoming
  rw [h.alike.worker, h.alike.stopRequested]
  split
  · rename_i e pass hworker
    have he : e.Untimed F := h.worker _ hworker
    rw [Termination.holds_eq he.termination h.alike.world.solution]
    split
    · rfl
    · obtain ⟨offer?, _, _, hrun, hrun', -⟩ | ⟨failure, _, _, hrun, hrun', -⟩ :=
        (Engine.timeless_offer hS).cases (s := (e, s.world)) (t := (e, t.world))
          ⟨he, rfl, h.alike.world⟩
      · rw [hrun, hrun']
      · rw [hrun, hrun']
  · rfl

/-- Two runs that obey the same orders, each at its own times. -/
theorem Beside.run (hS : Strategy.Timeless M F) (h : Beside F s t)
    {plan plan' : List (Order V α × α)} (hplans : plan.map Prod.fst = plan'.map Prod.fst) :
    Beside F (s.run plan) (t.run plan') ∧ t.course plan' = s.course plan := by
  -- by induction on the orders, from the first one on
  induction plan generalizing s t plan' with
  | nil =>
    rw [List.map_nil] at hplans
    rw [List.map_eq_nil_iff.1 hplans.symm]
    exact ⟨h, rfl⟩
  | cons first plan ih =>
    obtain ⟨order, time⟩ := first
    obtain ⟨⟨_, time'⟩, plan', rfl, rfl, hrest⟩ := List.map_eq_cons_iff.1 hplans.symm
    obtain ⟨hrun, hcourse⟩ := ih (h.obey hS time time' _) hrest.symm
    refine ⟨hrun, ?_⟩
    rw [course, course, h.upcoming_eq hS, hcourse]

end Solver

/-! ## Configured solvers -/

section

variable {X : Type} {r : Registry X} {props : Properties}

omit [Scalar α] [Model M V α] in
theorem SequenceConfig.learningMethod_ne_of_ofProperties {c : SequenceConfig}
    (hmethod : props.integer Key.learningMethod 2 = .ok 0 ∨
      props.integer Key.learningMethod 2 = .ok 2)
    (h : ofProperties props = .ok c) : c.learningMethod ≠ .timeWeighted := by
  unfold ofProperties at h
  obtain ⟨_, -, h⟩ := bind_eq_ok_iff.1 h
  obtain ⟨_, -, h⟩ := bind_eq_ok_iff.1 h
  obtain ⟨code, hcode, h⟩ := bind_eq_ok_iff.1 h
  obtain ⟨method, hread, h⟩ := bind_eq_ok_iff.1 h
  obtain ⟨_, -, h⟩ := bind_eq_ok_iff.1 h
  cases h
  rcases hmethod with hmethod | hmethod
  · rw [hmethod] at hcode
    cases hcode
    cases hread
    exact nofun
  · rw [hmethod] at hcode
    cases hcode
    cases hread
    exact nofun

omit [Model M V α] in
/-- No time limit is configured, so none is set. -/
theorem TerminationConfig.timeout_of_ofProperties {c : TerminationConfig}
    (hnegative : ¬ (0 : α) ≤ -1.0) (htimeOut : props.get? Key.timeOut = none)
    (h : ofProperties α props = .ok (.ok c)) : c.timeout = none := by
  have hseconds : props.number Key.timeOut (-1.0) = .ok (-1.0 : α) := by
    unfold Properties.number Properties.number? Properties.read
    rw [htimeOut]
    rfl
  unfold ofProperties at h
  obtain ⟨maxIters, -, h⟩ := bind_eq_ok_iff.1 h
  rw [hseconds, ok_bind] at h
  obtain ⟨stopWhenComplete, -, h⟩ := bind_eq_ok_iff.1 h
  unfold readTimeout at h
  rw [if_neg hnegative] at h
  cases h
  rfl

namespace Registry

variable (hmethod : props.integer Key.learningMethod 2 = .ok 0 ∨
  props.integer Key.learningMethod 2 = .ok 2)
include hmethod

theorem untimed_buildSequence {key : String} {spec : Option String}
    {sequence : Sequence (Generator X α) α} (h : r.buildSequence props key spec = .ok sequence) :
    sequence.Untimed := by
  unfold buildSequence at h
  cases spec with
  | none => cases h
  | some spec =>
    obtain ⟨selectors, -, h⟩ := bind_eq_ok_iff.1 h
    obtain ⟨config, hconfig, h⟩ := bind_eq_ok_iff.1 h
    obtain ⟨-, rfl⟩ := Sequence.of_withScores_eq_ok h
    exact SequenceConfig.learningMethod_ne_of_ofProperties hmethod (mapError_eq_ok_iff.1 hconfig)

theorem untimed_of_builds {t : BasicStrategy (Generator X α) α} (h : r.Builds props t) :
    t.Untimed := by
  cases t with
  | hillClimbing s =>
    obtain ⟨config, -, h⟩ := bind_eq_ok_iff.1 h
    obtain ⟨sequence, hsequence, h⟩ := bind_eq_ok_iff.1 h
    cases h
    exact untimed_buildSequence hmethod hsequence
  | greatDeluge s =>
    obtain ⟨config, -, h⟩ := bind_eq_ok_iff.1 h
    obtain ⟨general, -, h⟩ := bind_eq_ok_iff.1 h
    obtain ⟨search, -, h⟩ := bind_eq_ok_iff.1 h
    obtain ⟨sequence, hsequence, h⟩ := bind_eq_ok_iff.1 h
    cases h
    exact untimed_buildSequence hmethod hsequence
  | simulatedAnnealing s =>
    obtain ⟨config, -, h⟩ := bind_eq_ok_iff.1 h
    obtain ⟨search, -, h⟩ := bind_eq_ok_iff.1 h
    obtain ⟨sequence, hsequence, h⟩ := bind_eq_ok_iff.1 h
    cases h
    exact untimed_buildSequence hmethod hsequence
  | group s =>
    obtain ⟨search, -, h⟩ := bind_eq_ok_iff.1 h
    obtain ⟨general, -, h⟩ := bind_eq_ok_iff.1 h
    obtain ⟨config, -, h⟩ := bind_eq_ok_iff.1 h
    obtain ⟨sequence, hsequence, h⟩ := bind_eq_ok_iff.1 h
    have huntimed := untimed_buildSequence hmethod hsequence
    -- whether or not annealing takes part
    split at h
    · obtain ⟨annealing, -, h⟩ := bind_eq_ok_iff.1 h
      obtain ⟨_, -, h⟩ := bind_eq_ok_iff.1 h
      obtain ⟨construction, -, h⟩ := bind_eq_ok_iff.1 h
      cases h
      exact huntimed
    · obtain ⟨_, -, h⟩ := bind_eq_ok_iff.1 h
      obtain ⟨construction, -, h⟩ := bind_eq_ok_iff.1 h
      cases h
      exact huntimed
  | construction s => trivial

theorem untimed_buildStrategy {t : AnyStrategy (Generator X α) α}
    (h : r.buildStrategy props = .ok t) : t.Untimed := by
  obtain ⟨o, ho, rfl⟩ | ⟨s, hs, rfl⟩ := exists_of_buildStrategy h
  · obtain ⟨construction, stages, restartLimit, -, hstages, hof⟩ := exists_of_buildOrchestrator ho
    intro stage hstage
    exact untimed_of_builds hmethod (hstages stage (Orchestrator.mem_of_mem_stages hof hstage)).2
  · exact untimed_of_builds hmethod hs

end Registry

namespace Solver

/-- Two runs of a configured solver that obey the same orders, each at its own times, if there is no
time limit and moves are not weighed by the time. At any point of the runs

* the solvers are alike: their models, iterations, best states but for the time, random streams,
  events but for the time, notices, strategies with their scores and schedules, observers, and
  states are the same;
* the same proposals were committed, and the same became of them.

The only thing that is asked of the number type is that the default for the time limit, which is
negative, stands for none. -/
theorem runs_alike [MoveGenerator X M V α] {model : M} {entropy : UInt64} {clock : Nat → α}
    {threshold : Option Level} {s : Solver (AnyStrategy (Generator X α) α) M V α}
    {plan plan' : List (Order V α × α)} (hnegative : ¬ (0 : α) ≤ -1.0)
    (htimeOut : props.get? Key.timeOut = none)
    (hmethod : props.integer Key.learningMethod 2 = .ok 0 ∨
      props.integer Key.learningMethod 2 = .ok 2)
    (hbuilt : ofProperties model props r entropy clock threshold = .ok s)
    (hplans : plan.map Prod.fst = plan'.map Prod.fst) :
    (s.run plan).Alike (s.run plan') ∧ s.course plan' = s.course plan := by
  obtain ⟨⟨engine, seed⟩, hengine, hbuilt⟩ := bind_eq_ok_iff.1 hbuilt
  cases hbuilt
  have hparts := Engine.built_of_ofProperties hengine
  have hstrategy := Registry.untimed_buildStrategy hmethod hparts.strategy
  obtain ⟨config, hconfig, hconditions⟩ : ∃ config,
      TerminationConfig.ofProperties α props = .ok (.ok config) ∧
        Termination.ofConfig config = engine.termination := by
    obtain ⟨reading, hreading, h⟩ := map_eq_ok_iff.1 hparts.termination
    cases reading with
    | ok config => exact ⟨config, hreading, Except.ok.inj h⟩
    | error e => cases h
  have huntimed : engine.Untimed AnyStrategy.Untimed :=
    { strategy := hstrategy
      comparator := hparts.general ▸ Comparator.timeless_general
      termination := hconditions ▸ Termination.untimed_ofConfig
        (TerminationConfig.timeout_of_ofProperties hnegative htimeOut hconfig) }
  have hfresh : (World.ofSolution (.ofModel model)
      (.standard ((seed.map UInt64.ofNat).getD entropy)) threshold : World M α).Alike
      (.ofSolution (.ofModel model) (.standard ((seed.map UInt64.ofNat).getD entropy)) threshold) :=
    ⟨⟨rfl, rfl, rfl, .none, rfl, rfl, rfl, nofun⟩, rfl, ⟨rfl, rfl⟩, rfl⟩
  refine (Beside.run AnyStrategy.timeless ?_ hplans).imp_left Beside.alike
  refine ⟨⟨hfresh, rfl, rfl, rfl, rfl⟩, fun e he => ?_, fun w hw => by cases hw⟩
  cases he
  exact huntimed

/-- Two variables with three options and two, both assigned. -/
def countingModel : Penalty ℚ :=
  ⟨[[2, 1, 1], [3, 3]], [some 0, some 0], none, 0⟩

/-- Settings of hill climbing by changes of single variables that counts its moves. -/
def countingSettings : Properties :=
  .ofList [("HillClimber.Neighbours", "change"), ("Search.Strategy", "hill_climbing"),
    ("Sequence.LearningMethod", "0")]

/-- Two passes before the search is stopped. Every order takes a number of seconds. -/
def twoPasses (seconds : ℚ) : List (Order Nat ℚ × ℚ) :=
  [(.start, 0), (.work, seconds), (.work, 2 * seconds), (.work, 3 * seconds), (.stop, 4 * seconds),
    (.work, 5 * seconds), (.work, 6 * seconds), (.takeBack, 7 * seconds)]

/-- Hill climbing makes the same two passes at two different speeds. -/
theorem runs_alike_counting :
    ∃ s : Solver (AnyStrategy (Generator Empty ℚ) ℚ) (Penalty ℚ) Nat ℚ,
      ofProperties countingModel countingSettings .builtin 0 (fun _ => 0) none = .ok s ∧
      (s.run (twoPasses 1)).world.solution.time = 3 ∧
      (s.run (twoPasses 2)).world.solution.time = 6 ∧
      (s.run (twoPasses 1)).Alike (s.run (twoPasses 2)) ∧
      s.course (twoPasses 2) = s.course (twoPasses 1) ∧
      (s.course (twoPasses 1)).map Option.isSome =
        [false, false, true, true, true, false, false, false] := by
  have hruns : ((ofProperties countingModel countingSettings (Registry.builtin (X := Empty)) 0
      (fun _ => 0) none).toOption.map fun s =>
        ((s.run (twoPasses 1)).world.solution.time, (s.run (twoPasses 2)).world.solution.time,
          (s.course (twoPasses 1)).map Option.isSome)) =
      some (3, 6, [false, false, true, true, true, false, false, false]) := by
    decide +kernel
  cases hbuilt : ofProperties countingModel countingSettings (Registry.builtin (X := Empty)) 0
      (fun _ => 0) none with
  | error failure =>
    rw [hbuilt] at hruns
    cases hruns
  | ok s =>
    rw [hbuilt] at hruns
    obtain ⟨htime, hrest⟩ := Prod.mk.inj (Option.some.inj hruns)
    obtain ⟨htime', hcourse⟩ := Prod.mk.inj hrest
    have hplans : (twoPasses 1).map Prod.fst = (twoPasses 2).map Prod.fst := rfl
    obtain ⟨halike, hsame⟩ := runs_alike (by decide +kernel) (by decide +kernel)
      (.inl (by decide +kernel)) hbuilt hplans
    exact ⟨s, rfl, htime, htime', halike, hsame, hcourse⟩

end Solver

end

end LocalSearch
