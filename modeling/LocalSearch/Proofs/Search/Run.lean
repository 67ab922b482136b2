import LocalSearch.Proofs.Search.Engine
import LocalSearch.Solver
import Mathlib.Logic.Function.Iterate
import Mathlib.Logic.Relation
/-!
# Runs of a search

* `Solver.Step`: one step of a search. The worker goes on, or the owner asks it to stop; everything
  else an owner may do while a search runs leaves the solution alone.
* `Solver.During`: a property for each stage of a worker. `Solver.during_work` says what one step of
  the worker leads to, and `Solver.During.steps` is the induction over the steps of a search: what
  the opening establishes and every turn keeps holds before every pass.
-/

namespace LocalSearch

open Act

variable {S M V α : Type} [Scalar α] [Model M V α] [Strategy S M V α]

/-! ## The end of a search -/

namespace Engine

omit [Scalar α] [Model M V α] [Strategy S M V α] in
@[simp]
theorem still_tellHooks (notice : String → Notice α) :
    Still (tellHooks notice : Act (Engine S M V α) M α Unit) :=
  Attempt.fixes_modify fun _ => rfl

omit [Scalar α] [Model M V α] [Strategy S M V α] in
@[simp]
theorem still_tellExtensions (notice : String → Notice α) :
    Still (tellExtensions notice : Act (Engine S M V α) M α Unit) :=
  Attempt.fixes_modify fun _ => rfl

omit [Model M V α] [Strategy S M V α] in
theorem still_close (ending : Ending) (state : String) (time : α) :
    Still (close ending state time : Act (Engine S M V α) M α Unit) := by
  unfold close
  refine Attempt.fixes_bind (by simp) fun _ => Attempt.fixes_bind (by simp) fun s => ?_
  cases ending with
  | stopped => exact Attempt.fixes_bind (by simp) fun _ => by simp
  | done => exact Attempt.fixes_bind (by simp) fun _ => by simp

omit [Scalar α] [Model M V α] [Strategy S M V α] in
theorem still_fail (failure : Failure) :
    Still (fail failure : Act (Engine S M V α) M α Unit) := by
  unfold fail
  refine Attempt.fixes_bind (by simp) fun s => ?_
  exact Attempt.fixes_bind (by simp) fun _ => by simp

end Engine

/-! ## Steps -/

namespace Solver

/-- One step of a search. -/
inductive Step : Solver S M V α → Solver S M V α → Prop
  | work (s : Solver S M V α) : Step s s.work
  | stop (s : Solver S M V α) : Step s s.stop

/-- Some steps of a search. -/
abbrev Steps : Solver S M V α → Solver S M V α → Prop :=
  Relation.ReflTransGen Step

omit [Scalar α] [Model M V α] [Strategy S M V α] in
/-- The search is about to open. -/
def BeforeOpening (s : Solver S M V α) : Prop :=
  ∃ e, s.worker = some ⟨e, .opening⟩

omit [Scalar α] [Model M V α] [Strategy S M V α] in
/-- The search is about to make a pass. -/
def BeforePass (s : Solver S M V α) : Prop :=
  ∃ e pass, s.worker = some ⟨e, .passing pass⟩

/-- A property for each stage of a worker: before the opening, before a pass, and after the end. -/
def During (A B C : Engine S M V α → Solution M α → Prop) (s : Solver S M V α) : Prop :=
  ∀ w, s.worker = some w → match w.stage with
    | .opening => A w.engine s.world.solution
    | .passing _ => B w.engine s.world.solution
    | .closed _ => C w.engine s.world.solution
    | .ended => C w.engine s.world.solution

variable {A B C : Engine S M V α → Solution M α → Prop} {s s' : Solver S M V α}

omit [Scalar α] [Model M V α] [Strategy S M V α] in
theorem During.mono {A' B' C' : Engine S M V α → Solution M α → Prop} (h : During A B C s)
    (hA : ∀ e s, A e s → A' e s) (hB : ∀ e s, B e s → B' e s) (hC : ∀ e s, C e s → C' e s) :
    During A' B' C' s := by
  intro w hw
  have hstage := h w hw
  cases hcase : w.stage with
  | opening => rw [hcase] at hstage; exact hA _ _ hstage
  | passing pass => rw [hcase] at hstage; exact hB _ _ hstage
  | closed state => rw [hcase] at hstage; exact hC _ _ hstage
  | ended => rw [hcase] at hstage; exact hC _ _ hstage

omit [Scalar α] [Model M V α] [Strategy S M V α] in
/-- What every stage says of the solution. -/
theorem During.solution {P : Solution M α → Prop} {w : Worker S M V α} (h : During A B C s)
    (hworker : s.worker = some w) (hA : ∀ e s, A e s → P s) (hB : ∀ e s, B e s → P s)
    (hC : ∀ e s, C e s → P s) : P s.world.solution := by
  have hall : During (fun _ => P) (fun _ => P) (fun _ => P) s := h.mono hA hB hC
  have hstage := hall w hworker
  cases hcase : w.stage <;> rwa [hcase] at hstage

omit [Scalar α] [Model M V α] [Strategy S M V α] in
/-- A failed search ends with what telling about the failure leaves. -/
theorem workerFails_eq (engine : Engine S M V α) (world : World M α) (failure : Failure) :
    s.workerFails engine world failure =
      let t := (Engine.fail failure : Act (Engine S M V α) M α Unit).after (engine, world)
      { s with world := t.2, worker := some ⟨t.1, .closed .failed⟩ } := by
  unfold workerFails Attempt.after
  cases Engine.fail (S := S) (V := V) failure (engine, world) with
  | ok _ t => rfl
  | error _ t => rfl

omit [Model M V α] [Strategy S M V α] in
theorem workerCloses_eq (engine : Engine S M V α) (world : World M α) (ending : Ending) (time : α) :
    s.workerCloses engine world ending time =
      let state := SolverState.ofEnding ending
      let t := (Engine.close ending state.display time : Act (Engine S M V α) M α Unit).after
        (engine, world)
      { s with world := t.2, worker := some ⟨t.1, .closed state⟩ } := by
  unfold workerCloses Attempt.after
  dsimp only
  cases Engine.close (S := S) (V := V) ending (SolverState.ofEnding ending).display time
      (engine, world) with
  | ok _ t => rfl
  | error _ t => rfl

omit [Scalar α] [Model M V α] [Strategy S M V α] in
/-- Telling about the failure touches neither the engine nor the solution. -/
theorem during_workerFails {engine : Engine S M V α} {world : World M α} (failure : Failure)
    (h : C engine world.solution) : During A B C (s.workerFails engine world failure) := by
  rw [workerFails_eq]
  rintro _ ⟨⟩
  exact ((Engine.still_fail failure).ensures fun t => C t.1 t.2).after h

omit [Model M V α] [Strategy S M V α] in
theorem during_workerCloses {engine : Engine S M V α} {world : World M α} (ending : Ending)
    (time : α) (h : C engine world.solution) :
    During A B C (s.workerCloses engine world ending time) := by
  rw [workerCloses_eq]
  rintro _ ⟨⟩
  exact ((Engine.still_close ending _ time).ensures fun t => C t.1 t.2).after h

omit [Scalar α] [Model M V α] [Strategy S M V α] in
theorem solution_workerFails {engine : Engine S M V α} {world : World M α} (failure : Failure) :
    (s.workerFails engine world failure).world.solution = world.solution := by
  rw [workerFails_eq]
  exact ((Engine.still_fail failure).ensures (·.2 = world.solution)).after
    (s := (engine, world)) rfl

omit [Model M V α] [Strategy S M V α] in
theorem solution_workerCloses {engine : Engine S M V α} {world : World M α} (ending : Ending)
    (time : α) : (s.workerCloses engine world ending time).world.solution = world.solution := by
  rw [workerCloses_eq]
  exact ((Engine.still_close ending _ time).ensures (·.2 = world.solution)).after rfl

section

variable {e : Engine S M V α} {t : Engine S M V α × World M α} {failure : Failure} {k : Nat}

theorem work_of_none (hworker : s.worker = none) : s.work = s := by
  simp only [work, hworker]

theorem work_of_opening_ok {nothing : Bool} (hworker : s.worker = some ⟨e, .opening⟩)
    (hrun : Engine.opening (e, s.world) = .ok nothing t) :
    s.work = { s with
      world := t.2, worker := some ⟨t.1, .passing 1⟩
      stopRequested := s.stopRequested || nothing } := by
  simp only [work, hworker, workerStep, hrun]

theorem work_of_opening_error (hworker : s.worker = some ⟨e, .opening⟩)
    (hrun : Engine.opening (e, s.world) = .error failure t) :
    s.work = s.workerFails t.1 t.2 failure := by
  simp only [work, hworker, workerStep, hrun]

theorem work_of_turn_none (hworker : s.worker = some ⟨e, .passing k⟩)
    (hrun : Engine.turn s.stopRequested (s.clock k) (e, s.world) = .ok none t) :
    s.work = { s with world := t.2, worker := some ⟨t.1, .passing (k + 1)⟩ } := by
  simp only [work, hworker, workerStep, hrun]

theorem work_of_turn_some {ending : Ending} (hworker : s.worker = some ⟨e, .passing k⟩)
    (hrun : Engine.turn s.stopRequested (s.clock k) (e, s.world) = .ok (some ending) t) :
    s.work = s.workerCloses t.1 t.2 ending (s.clock k) := by
  simp only [work, hworker, workerStep, hrun]

theorem work_of_turn_error (hworker : s.worker = some ⟨e, .passing k⟩)
    (hrun : Engine.turn s.stopRequested (s.clock k) (e, s.world) = .error failure t) :
    s.work = s.workerFails t.1 t.2 failure := by
  simp only [work, hworker, workerStep, hrun]

/-- After a search is closed its state is announced. -/
theorem work_of_closed {state : SolverState} (hworker : s.worker = some ⟨e, .closed state⟩) :
    s.work = { s with state, worker := some ⟨e, .ended⟩ } := by
  simp only [work, hworker, workerStep]

theorem work_of_ended (hworker : s.worker = some ⟨e, .ended⟩) : s.work = s := by
  simp only [work, hworker, workerStep]

end

/-- What a step of the worker leads to from one state: by the opening, by a turn, or as nothing is
left to do. -/
theorem during_work {w : Worker S M V α} (hworker : s.worker = some w)
    (hopening : w.stage = .opening → Attempt.Ensures (· = (w.engine, s.world))
      (Engine.opening : Act (Engine S M V α) M α Bool) (fun _ t => B t.1 t.2.solution)
      (fun t => C t.1 t.2.solution))
    (hturn : ∀ pass, w.stage = .passing pass → Attempt.Ensures (· = (w.engine, s.world))
      (Engine.turn s.stopRequested (s.clock pass) : Act (Engine S M V α) M α (Option Ending))
      (fun ending? t => match ending? with
        | some _ => C t.1 t.2.solution
        | none => B t.1 t.2.solution) (fun t => C t.1 t.2.solution))
    (hclosed : ∀ state, w.stage = .closed state → C w.engine s.world.solution)
    (hended : w.stage = .ended → C w.engine s.world.solution) :
    During (fun _ _ => False) B C s.work := by
  obtain ⟨e, stage⟩ := w
  cases stage with
  | ended =>
    rw [work_of_ended hworker]
    intro w hw
    cases hworker.symm.trans hw
    exact hended rfl
  | closed state =>
    rw [work_of_closed hworker]
    rintro _ ⟨⟩
    exact hclosed state rfl
  | opening =>
    have hopening := hopening rfl
    cases hrun : Engine.opening (S := S) (V := V) (e, s.world) with
    | ok nothing t =>
      rw [work_of_opening_ok hworker hrun]
      rintro _ ⟨⟩
      exact hopening.of_ok rfl hrun
    | error failure t =>
      rw [work_of_opening_error hworker hrun]
      exact during_workerFails failure (hopening.of_error rfl hrun)
  | passing pass =>
    have hturn := hturn pass rfl
    cases hrun : Engine.turn (S := S) (V := V) s.stopRequested (s.clock pass) (e, s.world) with
    | ok ending? t =>
      cases ending? with
      | none =>
        rw [work_of_turn_none hworker hrun]
        rintro _ ⟨⟩
        exact hturn.of_ok rfl hrun
      | some ending =>
        rw [work_of_turn_some hworker hrun]
        exact during_workerCloses ending _ (hturn.of_ok rfl hrun)
    | error failure t =>
      rw [work_of_turn_error hworker hrun]
      exact during_workerFails failure (hturn.of_error rfl hrun)

/-- The same from all states of a kind. -/
theorem During.work {B' C' : Engine S M V α → Solution M α → Prop}
    (hopening : Leads A (Engine.opening : Act (Engine S M V α) M α Bool) (fun _ => B') C')
    (hturn : ∀ stop time, Leads B (Engine.turn stop time : Act (Engine S M V α) M α (Option Ending))
      (fun ending? e s => match ending? with
        | some _ => C' e s
        | none => B' e s) C')
    (hend : ∀ e s, C e s → C' e s) (h : During A B C s) :
    During (fun _ _ => False) B' C' s.work := by
  cases hworker : s.worker with
  | none =>
    rw [work_of_none hworker]
    intro w hw
    cases hworker.symm.trans hw
  | some w =>
    have hw := h w hworker
    refine during_work hworker (fun hstage => ?_) (fun pass hstage => ?_) (fun state hstage => ?_)
      fun hstage => ?_
    all_goals rw [hstage] at hw
    · exact hopening.run hw
    · exact (hturn _ _).run hw
    · exact hend _ _ hw
    · exact hend _ _ hw

/-- A worker that has started stays, also after the end of the search. -/
theorem worker_work {w : Worker S M V α} (h : s.worker = some w) :
    ∃ w', s.work.worker = some w' := by
  obtain ⟨e, stage⟩ := w
  cases stage with
  | ended =>
    rw [work_of_ended h]
    exact ⟨_, h⟩
  | closed state =>
    rw [work_of_closed h]
    exact ⟨_, rfl⟩
  | opening =>
    cases hrun : Engine.opening (S := S) (V := V) (e, s.world) with
    | ok nothing t =>
      rw [work_of_opening_ok h hrun]
      exact ⟨_, rfl⟩
    | error failure t =>
      rw [work_of_opening_error h hrun, workerFails_eq]
      exact ⟨_, rfl⟩
  | passing pass =>
    cases hrun : Engine.turn (S := S) (V := V) s.stopRequested (s.clock pass) (e, s.world) with
    | ok ending? t =>
      cases ending? with
      | none =>
        rw [work_of_turn_none h hrun]
        exact ⟨_, rfl⟩
      | some ending =>
        rw [work_of_turn_some h hrun, workerCloses_eq]
        exact ⟨_, rfl⟩
    | error failure t =>
      rw [work_of_turn_error h hrun, workerFails_eq]
      exact ⟨_, rfl⟩

/-- What the opening establishes and every turn keeps survives a step of the search. -/
theorem During.step (hopening : Leads A (Engine.opening : Act (Engine S M V α) M α Bool)
      (fun _ => B) C)
    (hturn : ∀ stop time, Leads B (Engine.turn stop time : Act (Engine S M V α) M α (Option Ending))
      (fun ending? e s => match ending? with
        | some _ => C e s
        | none => B e s) C)
    (h : During A B C s) (hstep : Step s s') : During A B C s' := by
  cases hstep with
  | stop => exact h
  | work =>
    exact (h.work hopening hturn fun _ _ h => h).mono (fun _ _ h => h.elim) (fun _ _ h => h)
      fun _ _ h => h

theorem During.steps (hopening : Leads A (Engine.opening : Act (Engine S M V α) M α Bool)
      (fun _ => B) C)
    (hturn : ∀ stop time, Leads B (Engine.turn stop time : Act (Engine S M V α) M α (Option Ending))
      (fun ending? e s => match ending? with
        | some _ => C e s
        | none => B e s) C)
    (h : During A B C s) (hsteps : Steps s s') : During A B C s' := by
  -- by induction on the steps, from the first one on
  induction hsteps with
  | refl => exact h
  | tail _ hstep ih => exact ih.step hopening hturn hstep

/-- The worker goes on for some steps. -/
theorem steps_iterate (s : Solver S M V α) (m : Nat) : Steps s (work^[m] s) := by
  induction m with
  | zero => exact .refl
  | succ m ih =>
    rw [Function.iterate_succ_apply']
    exact ih.tail (.work _)

/-- A worker that has started stays. -/
theorem worker_of_steps {w : Worker S M V α} (h : s.worker = some w) (hsteps : Steps s s') :
    ∃ w', s'.worker = some w' := by
  induction hsteps with
  | refl => exact ⟨w, h⟩
  | tail _ hstep ih =>
    obtain ⟨w', hw'⟩ := ih
    cases hstep with
    | work => exact worker_work hw'
    | stop => exact ⟨w', hw'⟩

omit [Scalar α] [Model M V α] [Strategy S M V α] in
theorem beforePass_of_stage (pass : Nat) (h : s.worker.map Worker.stage = some (.passing pass)) :
    s.BeforePass := by
  obtain ⟨⟨e, stage⟩, hw, rfl⟩ := Option.map_eq_some_iff.1 h
  exact ⟨e, pass, hw⟩

omit [Scalar α] [Model M V α] [Strategy S M V α] in
/-- A search that starts has a worker before the opening, with the engine and the world as they
are. -/
theorem worker_of_start (h : s.start = .ok s') :
    ∃ e, s.engine = some e ∧ s'.worker = some ⟨e, .opening⟩ ∧ s'.world = s.world := by
  unfold start at h
  cases hengine : s.engine with
  | none => rw [hengine] at h; cases h
  | some e =>
    rw [hengine] at h
    cases h
    exact ⟨e, rfl, rfl, rfl⟩

omit [Scalar α] [Model M V α] [Strategy S M V α] in
/-- A search that starts has not been asked to stop. -/
theorem stopRequested_of_start (h : s.start = .ok s') : s'.stopRequested = false := by
  unfold start at h
  cases hengine : s.engine with
  | none => rw [hengine] at h; cases h
  | some e =>
    rw [hengine] at h
    cases h
    rfl

end Solver

end LocalSearch
