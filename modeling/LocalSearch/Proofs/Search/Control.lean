import LocalSearch.Proofs.Search.Iterations
/-!
# Commands while a search runs

The owner of a solver gives commands while a worker makes its steps. Both write the state and the
request to stop, and the engine passes from the one to the other. What they do is done at once: a
worker looks at the request when a pass begins, and the owner waits for the end of a worker before
the engine is taken back. So the orders in which commands and steps can follow each other are all
that can happen.

* `Solver.Works`: what one step of a worker does to what the owner sees of it.
* `Solver.Life`: commands and steps in any order.
* `Solver.Orderly`: what holds between them; `Solver.Life.orderly` is the induction.
* `Solver.Controlled`: what the owner can rely on; `Solver.controlled_of_life`.
-/

namespace LocalSearch

open Act

variable {S M V α : Type} [Scalar α] [Model M V α] [Strategy S M V α]

/-! ## Steps of a worker -/

namespace Engine

/-- The opening says whether there is anything to solve. -/
theorem variableCount_of_opening {t t' : Engine S M V α × World M α}
    (hrun : Engine.opening t = .ok true t') :
    Model.variableCount t'.2.solution.model = 0 := by
  have hopening := opening_leads (S := S) (M := M) (V := V) (α := α) (P := fun _ _ => True)
    (Q := fun _ _ => True) (E := fun _ _ => True) Attempt.ensures_any Attempt.ensures_any
    (fun _ _ _ _ => trivial) fun _ _ _ _ _ _ => trivial
  exact (hopening.of_ok trivial hrun).2.1 rfl

/-- Who is asked to stop makes no further pass. -/
theorem turn_of_stop (time : α) (t : Engine S M V α × World M α) :
    Engine.turn true time t = .ok (some .stopped) t :=
  rfl

/-- Nobody stops without being asked to. -/
theorem stop_of_turn {stop : Bool} {time : α} {t t' : Engine S M V α × World M α}
    (hrun : Engine.turn stop time t = .ok (some .stopped) t') : stop = true := by
  have hturn : Attempt.Ensures (fun _ => True)
      (Engine.turn stop time : Act (Engine S M V α) M α (Option Ending))
      (fun ending? _ => ending? = some .stopped → stop = true) (fun _ => True) := by
    unfold turn
    split
    · rename_i hstop
      exact Attempt.ensures_pure fun _ _ _ => hstop
    · refine Attempt.ensures_get_bind fun t _ => ?_
      dsimp only
      split
      · exact Attempt.ensures_pure fun _ _ h => by cases h
      · exact Attempt.ensures_any.bind fun _ => Attempt.ensures_pure fun _ _ h => by cases h
  exact hturn.of_ok trivial hrun rfl

end Engine

namespace Solver

variable {s s' : Solver S M V α} {e e' : Engine S M V α} {world : World M α}

/-- One step of a worker, as far as the owner can see: it has ended or there is none, or it
announces the end of a search that is closed, opens, makes a pass, or closes. -/
inductive Works (s : Solver S M V α) : Solver S M V α → Prop
  | rests (hend : s.isWorking = false) : Works s s
  | announces {e : Engine S M V α} {state : SolverState}
    (hworker : s.worker = some ⟨e, .closed state⟩) :
    Works s { s with state, worker := some ⟨e, .ended⟩ }
  | opens {e e' : Engine S M V α} {world : World M α} {nothing : Bool}
    (hworker : s.worker = some ⟨e, .opening⟩)
    (hnothing : nothing = true → Model.variableCount world.solution.model = 0) :
    Works s { s with
      world, worker := some ⟨e', .passing 1⟩, stopRequested := s.stopRequested || nothing }
  | passes {e e' : Engine S M V α} {world : World M α} {k : Nat}
    (hworker : s.worker = some ⟨e, .passing k⟩) (hstop : s.stopRequested = false) :
    Works s { s with world, worker := some ⟨e', .passing (k + 1)⟩ }
  | aborts {e e' : Engine S M V α} {world : World M α}
    (hworker : s.worker = some ⟨e, .opening⟩) :
    Works s { s with world, worker := some ⟨e', .closed .failed⟩ }
  | closes {e e' : Engine S M V α} {world : World M α} {k : Nat} {state : SolverState}
    (hworker : s.worker = some ⟨e, .passing k⟩) (hstate : state.isFinished = true)
    (hstop : state = .stopped ↔ s.stopRequested = true)
    (hstill : s.stopRequested = true → world.solution = s.world.solution) :
    Works s { s with world, worker := some ⟨e', .closed state⟩ }

theorem works_work (s : Solver S M V α) : Works s s.work := by
  cases hworker : s.worker with
  | none =>
    rw [work_of_none hworker]
    exact .rests (by simp [isWorking, hworker])
  | some w =>
    obtain ⟨e, stage⟩ := w
    cases stage with
    | ended =>
      rw [work_of_ended hworker]
      exact .rests (by simp [isWorking, hworker])
    | closed state =>
      rw [work_of_closed hworker]
      exact .announces hworker
    | opening =>
      cases hrun : Engine.opening (S := S) (V := V) (e, s.world) with
      | ok nothing t =>
        rw [work_of_opening_ok hworker hrun]
        refine .opens hworker ?_
        rintro rfl
        exact Engine.variableCount_of_opening hrun
      | error failure t =>
        rw [work_of_opening_error hworker hrun, workerFails_eq]
        exact .aborts hworker
    | passing k =>
      cases hstop : s.stopRequested with
      | true =>
        have hrun : Engine.turn s.stopRequested (s.clock k) (e, s.world) =
            .ok (some .stopped) (e, s.world) := by
          rw [hstop]
          exact Engine.turn_of_stop _ _
        rw [work_of_turn_some hworker hrun]
        have hsolution : (s.workerCloses e s.world .stopped (s.clock k)).world.solution =
            s.world.solution := solution_workerCloses _ _
        rw [workerCloses_eq] at hsolution ⊢
        exact .closes hworker rfl ⟨fun _ => hstop, fun _ => rfl⟩ fun _ => hsolution
      | false =>
        have hunasked : ¬ s.stopRequested = true := by simp [hstop]
        cases hrun : Engine.turn (S := S) (V := V) s.stopRequested (s.clock k) (e, s.world) with
        | ok ending? t =>
          cases ending? with
          | none =>
            rw [work_of_turn_none hworker hrun]
            exact .passes hworker hstop
          | some ending =>
            rw [work_of_turn_some hworker hrun, workerCloses_eq]
            cases ending with
            | stopped => exact absurd (Engine.stop_of_turn hrun) hunasked
            | done =>
              exact .closes hworker rfl (iff_of_false (by decide) hunasked) (absurd · hunasked)
        | error failure t =>
          rw [work_of_turn_error hworker hrun, workerFails_eq]
          exact .closes hworker rfl (iff_of_false (by decide) hunasked) (absurd · hunasked)

/-! ## Everything that can happen -/

/-- Commands of the owner and steps of the worker in any order, with two notes: whether a search
was ever started, and whether the owner has asked to stop since the last start. A command that is
refused leaves the solver as it is. -/
inductive Life (s₀ : Solver S M V α) : Bool → Bool → Solver S M V α → Prop
  | new : Life s₀ false false s₀
  | work {begun asked : Bool} {s : Solver S M V α} (life : Life s₀ begun asked s) :
    Life s₀ begun asked s.work
  | start {begun asked : Bool} {s s' : Solver S M V α} (life : Life s₀ begun asked s)
    (hstart : s.start = .ok s') : Life s₀ true false s'
  | stop {begun asked : Bool} {s : Solver S M V α} (life : Life s₀ begun asked s) :
    Life s₀ begun true s.stop
  | join {begun asked : Bool} {s s' : Solver S M V α} (life : Life s₀ begun asked s) (fuel : Nat)
    (hjoin : s.join fuel = some s') : Life s₀ begun asked s'
  | solve {begun asked : Bool} {s s' : Solver S M V α} (life : Life s₀ begun asked s) (fuel : Nat)
    (hsolve : s.solve fuel = .ok (some s')) : Life s₀ true false s'
  | change {begun asked : Bool} {s s' : Solver S M V α} (life : Life s₀ begun asked s) {β : Type}
    (x : Attempt (World M α) β) {b : β} (hchange : s.changeSolution x = .ok b s') :
    Life s₀ begun asked s'
  | changeFails {begun asked : Bool} {s s' : Solver S M V α} (life : Life s₀ begun asked s)
    {β : Type} (x : Attempt (World M α) β) {failure : Failure}
    (hchange : s.changeSolution x = .error failure s') : Life s₀ begun asked s'

/-- What holds between commands and steps. -/
structure Orderly (begun asked : Bool) (s : Solver S M V α) : Prop where
  one_search : s.engine = none ↔ s.worker.isSome = true
  working : s.isWorking = true → begun = true ∧ s.state = .running
  resting : s.isWorking = false →
    begun = true ∧ s.state.isFinished = true ∨ begun = false ∧ s.state = .idle
  closing : ∀ e state, s.worker = some ⟨e, .closed state⟩ →
    state.isFinished = true ∧ (state = .stopped → s.stopRequested = true)
  not_lost : asked = true → s.stopRequested = true
  /-- A search that was not asked to stop and will stop has found nothing to solve. -/
  reason : s.isWorking = true → s.stopRequested = true → asked = false →
    (∀ e, s.worker ≠ some ⟨e, .opening⟩) ∧ Model.variableCount s.world.solution.model = 0

variable {begun asked : Bool}

omit [Scalar α] [Strategy S M V α] in
theorem orderly_of (world : World M α) (engine : Engine S M V α) (clock : Nat → α) :
    Orderly false false (of world engine clock) where
  one_search := by simp [of]
  working := nofun
  resting _ := .inr ⟨rfl, rfl⟩
  closing := nofun
  not_lost := nofun
  reason := nofun

omit [Scalar α] [Strategy S M V α] [Model M V α] in
theorem isWorking_of {e : Engine S M V α} {stage : WorkerStage}
    (hworker : s.worker = some ⟨e, stage⟩) : s.isWorking = (stage != .ended) := by
  simp [isWorking, hworker]

theorem Orderly.work (h : Orderly begun asked s) : Orderly begun asked s.work := by
  have hworks := works_work s
  generalize s.work = s' at hworks ⊢
  cases hworks with
  | rests => exact h
  | announces hworker =>
    have hstate := h.closing _ _ hworker
    have hbegun := h.working (isWorking_of hworker)
    exact {
      one_search := by simp [h.one_search, hworker]
      working := nofun
      resting := fun _ => .inl ⟨hbegun.1, hstate.1⟩
      closing := nofun
      not_lost := h.not_lost
      reason := nofun }
  | opens hworker hnothing =>
    have hbegun := h.working (isWorking_of hworker)
    exact {
      one_search := by simp [h.one_search, hworker]
      working := fun _ => hbegun
      resting := nofun
      closing := nofun
      not_lost := fun hasked => by simp [h.not_lost hasked]
      reason := fun _ hstop hasked => ⟨nofun, by
        cases hrequested : s.stopRequested with
        | true => exact absurd hworker ((h.reason (isWorking_of hworker) hrequested hasked).1 _)
        | false =>
          rw [hrequested, Bool.false_or] at hstop
          exact hnothing hstop⟩ }
  | passes hworker hstop =>
    have hbegun := h.working (isWorking_of hworker)
    exact {
      one_search := by simp [h.one_search, hworker]
      working := fun _ => hbegun
      resting := nofun
      closing := nofun
      not_lost := h.not_lost
      reason := fun _ hrequested => by
        rw [show s.stopRequested = true from hrequested] at hstop
        cases hstop }
  | aborts hworker =>
    have hbegun := h.working (isWorking_of hworker)
    exact {
      one_search := by simp [h.one_search, hworker]
      working := fun _ => hbegun
      resting := nofun
      closing := fun _ _ hclosed => by cases hclosed; exact ⟨rfl, nofun⟩
      not_lost := h.not_lost
      reason := fun _ hrequested hasked =>
        absurd hworker ((h.reason (isWorking_of hworker) hrequested hasked).1 _) }
  | closes hworker hstate hstop hstill =>
    have hbegun := h.working (isWorking_of hworker)
    exact {
      one_search := by simp [h.one_search, hworker]
      working := fun _ => hbegun
      resting := nofun
      closing := fun _ _ hclosed => by cases hclosed; exact ⟨hstate, hstop.1⟩
      not_lost := h.not_lost
      reason := fun _ hrequested hasked => ⟨nofun, by
        have hnothing := (h.reason (isWorking_of hworker) hrequested hasked).2
        rw [← hstill hrequested] at hnothing
        exact hnothing⟩ }

omit [Scalar α] [Strategy S M V α] [Model M V α] in
theorem start_of_engine {e : Engine S M V α} (hengine : s.engine = some e) :
    s.start = .ok { s with
      engine := none, stopRequested := false, state := .running
      worker := some ⟨e, .opening⟩ } := by
  unfold start
  rw [hengine]

omit [Scalar α] [Strategy S M V α] [Model M V α] in
theorem start_of_none (hengine : s.engine = none) :
    s.start = .error (.invalidState "the solver is already running") := by
  unfold start
  rw [hengine]

omit [Scalar α] [Strategy S M V α] in
theorem Orderly.start (hstart : s.start = .ok s') : Orderly true false s' := by
  cases hengine : s.engine with
  | none =>
    rw [start_of_none hengine] at hstart
    cases hstart
  | some e =>
    rw [start_of_engine hengine] at hstart
    cases hstart
    exact {
      one_search := by simp
      working := fun _ => ⟨rfl, rfl⟩
      resting := nofun
      closing := nofun
      not_lost := nofun
      reason := nofun }

omit [Scalar α] [Strategy S M V α] in
theorem Orderly.stop (h : Orderly begun asked s) : Orderly begun true s.stop where
  one_search := h.one_search
  working := h.working
  resting := h.resting
  closing e state hclosed := ⟨(h.closing e state hclosed).1, fun _ => rfl⟩
  not_lost _ := rfl
  reason := nofun

theorem Orderly.iterate (h : Orderly begun asked s) (m : Nat) :
    Orderly begun asked (Solver.work^[m] s) := by
  induction m with
  | zero => exact h
  | succ m ih =>
    rw [Function.iterate_succ_apply']
    exact ih.work

omit [Scalar α] [Strategy S M V α] [Model M V α] in
/-- No search runs, and the engine is available. -/
structure AtRest (s : Solver S M V α) : Prop where
  state : s.state ≠ .running
  engine : s.engine.isSome = true
  worker : s.worker = none

omit [Scalar α] [Strategy S M V α] in
theorem Orderly.running_iff (h : Orderly begun asked s) :
    s.state = .running ↔ s.isWorking = true := by
  constructor
  · intro hstate
    by_contra hend
    rcases h.resting (Bool.not_eq_true _ ▸ hend) with ⟨-, hfinished⟩ | ⟨-, hidle⟩
    · rw [hstate] at hfinished
      cases hfinished
    · rw [hstate] at hidle
      cases hidle
  · exact fun hworking => (h.working hworking).2

omit [Scalar α] [Strategy S M V α] in
theorem Orderly.engine_iff (h : Orderly begun asked s) :
    s.engine.isSome = true ↔ s.worker = none := by
  rw [Option.isSome_iff_ne_none, ne_eq, h.one_search, Bool.not_eq_true, Option.isSome_eq_false_iff,
    Option.isNone_iff_eq_none]

omit [Scalar α] [Strategy S M V α] in
theorem Orderly.takeBack (h : Orderly begun asked s) (hend : s.isWorking = false) :
    Orderly begun asked s.takeBack ∧ s.takeBack.AtRest := by
  have hrunning : s.state ≠ .running := fun hstate => by
    rw [h.running_iff.1 hstate] at hend
    cases hend
  unfold Solver.takeBack
  cases hworker : s.worker with
  | none =>
    exact ⟨h, hrunning, h.engine_iff.2 hworker, hworker⟩
  | some w =>
    exact ⟨{
      one_search := by simp
      working := nofun
      resting := fun _ => h.resting hend
      closing := nofun
      not_lost := h.not_lost
      reason := nofun }, hrunning, rfl, rfl⟩

/-- Waiting is to let the worker make its steps. -/
theorem exists_iterate_of_workUntil {fuel : Nat} (h : workUntil (fun _ => false) fuel s = some s') :
    ∃ m, s' = Solver.work^[m] s ∧ s'.isWorking = false := by
  induction fuel generalizing s with
  | zero => cases h
  | succ fuel ih =>
    unfold workUntil at h
    cases hworking : s.isWorking with
    | true =>
      rw [hworking] at h
      obtain ⟨m, hm, hend⟩ := ih h
      exact ⟨m + 1, hm, hend⟩
    | false =>
      rw [hworking] at h
      cases h
      exact ⟨0, rfl, hworking⟩

theorem Orderly.join (h : Orderly begun asked s) {fuel : Nat} (hjoin : s.join fuel = some s') :
    Orderly begun asked s' ∧ s'.AtRest := by
  obtain ⟨s₁, hwait, rfl⟩ := Option.map_eq_some_iff.1 hjoin
  obtain ⟨m, rfl, hend⟩ := exists_iterate_of_workUntil hwait
  exact (h.iterate m).takeBack hend

theorem join_of_solve {fuel : Nat} (hsolve : s.solve fuel = .ok (some s')) :
    ∃ s₁, s.start = .ok s₁ ∧ s₁.join fuel = some s' := by
  unfold solve at hsolve
  cases hstart : s.start with
  | error e =>
    rw [hstart] at hsolve
    cases hsolve
  | ok s₁ =>
    rw [hstart] at hsolve
    exact ⟨s₁, rfl, Except.ok.inj hsolve⟩

omit [Scalar α] [Strategy S M V α] [Model M V α] in
theorem changeSolution_of_running {β : Type} (x : Attempt (World M α) β)
    (hstate : s.state = .running) :
    s.changeSolution x =
      .error (.error (.invalidState "the solution cannot be modified while solving")) s := by
  unfold changeSolution isRunning
  rw [hstate]
  rfl

omit [Scalar α] [Strategy S M V α] [Model M V α] in
theorem changeSolution_of_not_running {β : Type} (x : Attempt (World M α) β)
    (hstate : s.state ≠ .running) :
    s.changeSolution x =
      match x s.world with
      | .ok b world => .ok b { s with world }
      | .error e world => .error e { s with world } := by
  have hnot : s.isRunning = false := by
    unfold isRunning
    simpa using hstate
  unfold changeSolution
  rw [hnot]
  rfl

omit [Scalar α] [Strategy S M V α] in
/-- The owner's changes come when no search runs. -/
theorem Orderly.withWorld (h : Orderly begun asked s) (hstate : s.state ≠ .running)
    (world : World M α) : Orderly begun asked { s with world } where
  one_search := h.one_search
  working := h.working
  resting := h.resting
  closing := h.closing
  not_lost := h.not_lost
  reason hworking := absurd (h.working hworking).2 hstate

omit [Scalar α] [Strategy S M V α] in
theorem Orderly.changeSolution (h : Orderly begun asked s) {β : Type} (x : Attempt (World M α) β) :
    match s.changeSolution x with
    | .ok _ s' => Orderly begun asked s'
    | .error _ s' => Orderly begun asked s' := by
  by_cases hstate : s.state = .running
  · rw [changeSolution_of_running x hstate]
    exact h
  · rw [changeSolution_of_not_running x hstate]
    cases x s.world with
    | ok b world => exact h.withWorld hstate world
    | error e world => exact h.withWorld hstate world

theorem Life.orderly {world : World M α} {engine : Engine S M V α} {clock : Nat → α}
    (life : Life (of world engine clock) begun asked s) : Orderly begun asked s := by
  induction life with
  | new => exact orderly_of world engine clock
  | work _ ih => exact ih.work
  | start _ hstart _ => exact .start hstart
  | stop _ ih => exact ih.stop
  | join _ fuel hjoin ih => exact (ih.join hjoin).1
  | solve _ fuel hsolve ih =>
    obtain ⟨s₁, hstart, hjoin⟩ := join_of_solve hsolve
    exact ((Orderly.start hstart).join hjoin).1
  | change _ x hchange ih =>
    have hkept := ih.changeSolution x
    rw [hchange] at hkept
    exact hkept
  | changeFails _ x hchange ih =>
    have hkept := ih.changeSolution x
    rw [hchange] at hkept
    exact hkept

/-! ## A search that was asked to stop -/

omit [Scalar α] [Strategy S M V α] [Model M V α] in
/-- How many steps a worker makes that was asked to stop. -/
def stepsLeft (s : Solver S M V α) : Nat :=
  match s.worker.map Worker.stage with
  | some .opening => 3
  | some (.passing _) => 2
  | some (.closed _) => 1
  | some .ended => 0
  | none => 0

omit [Scalar α] [Strategy S M V α] [Model M V α] in
theorem stepsLeft_eq_zero : s.stepsLeft = 0 ↔ s.isWorking = false := by
  unfold stepsLeft isWorking
  rcases s.worker with _ | ⟨e, _ | _ | _ | _⟩ <;> simp

theorem stepsLeft_work (hstop : s.stopRequested = true) :
    s.work.stopRequested = true ∧ s.work.stepsLeft ≤ s.stepsLeft - 1 := by
  have hworks := works_work s
  generalize s.work = s' at hworks ⊢
  cases hworks with
  | rests hend =>
    rw [stepsLeft_eq_zero.2 hend]
    exact ⟨hstop, Nat.le_refl _⟩
  | announces hworker => exact ⟨hstop, by simp [stepsLeft]⟩
  | opens hworker => exact ⟨by simp [hstop], by simp [stepsLeft, hworker]⟩
  | passes hworker hnot =>
    rw [hstop] at hnot
    cases hnot
  | aborts hworker => exact ⟨hstop, by simp [stepsLeft, hworker]⟩
  | closes hworker => exact ⟨hstop, by simp [stepsLeft, hworker]⟩

theorem stepsLeft_iterate (hstop : s.stopRequested = true) (m : Nat) :
    (Solver.work^[m] s).stopRequested = true ∧ (Solver.work^[m] s).stepsLeft ≤ s.stepsLeft - m := by
  induction m with
  | zero => exact ⟨hstop, Nat.le_refl _⟩
  | succ m ih =>
    rw [Function.iterate_succ_apply']
    have hnext := stepsLeft_work ih.1
    exact ⟨hnext.1, by omega⟩

/-- The owner does not wait long for a search that was asked to stop. -/
theorem exists_join_of_stop (hstop : s.stopRequested = true) : ∃ s', s.join 4 = some s' := by
  have hleft : s.stepsLeft ≤ 3 := by
    unfold stepsLeft
    split <;> omega
  have hend : (Solver.work^[3] s).isWorking = false := by
    have hthree := (stepsLeft_iterate hstop 3).2
    exact stepsLeft_eq_zero.1 (by omega)
  refine ⟨(Solver.work^[3] s).takeBack, ?_⟩
  unfold Solver.join
  rw [workUntil_of_iterate hend (Nat.lt_succ_self 3)]
  rfl

/-- It makes no further pass. -/
theorem closed_of_stop (hstop : s.stopRequested = true) {k : Nat}
    (hworker : s.worker = some ⟨e, .passing k⟩) :
    ∃ e', s.work.worker = some ⟨e', .closed .stopped⟩ ∧
      s.work.world.solution = s.world.solution := by
  have hworks := works_work s
  generalize s.work = s' at hworks ⊢
  cases hworks with
  | rests hend =>
    rw [isWorking_of hworker] at hend
    cases hend
  | announces hother => cases hworker.symm.trans hother
  | opens hother => cases hworker.symm.trans hother
  | passes _ hnot =>
    rw [hstop] at hnot
    cases hnot
  | aborts hother => cases hworker.symm.trans hother
  | closes _ _ hstate hstill =>
    rw [hstate.2 hstop]
    exact ⟨_, rfl, hstill hstop⟩

/-! ## What the owner can rely on -/

/-- What commands do after any commands and steps. -/
structure Controlled (begun asked : Bool) (s : Solver S M V α) : Prop where
  /-- A search starts only if there is no other one. -/
  start_iff : (∃ s', s.start = .ok s') ↔ s.worker = none
  engine_iff : s.engine.isSome = true ↔ s.worker = none
  start_running : ∀ s', s.start = .ok s' →
    s'.state = .running ∧ s'.isWorking = true ∧ s'.stopRequested = false
  /-- The state is that of a running search until the worker has announced how it ended. -/
  running_iff : s.state = .running ↔ s.isWorking = true
  announced : s.isWorking = true → s.work.isWorking = false → s.work.state.isFinished = true
  idle_iff : s.state = .idle ↔ begun = false
  change_running : s.state = .running → ∀ {β : Type} (x : Attempt (World M α) β),
    s.changeSolution x =
      .error (.error (.invalidState "the solution cannot be modified while solving")) s
  change_otherwise : s.state ≠ .running → ∀ {β : Type} (x : Attempt (World M α) β) (b : β)
    (world : World M α), x s.world = .ok b world → s.changeSolution x = .ok b { s with world }
  join : ∀ fuel s', s.join fuel = some s' → s'.AtRest
  solve : ∀ fuel s', s.solve fuel = .ok (some s') → s'.AtRest ∧ s'.state.isFinished = true
  stop_join : ∀ fuel s', s.stop.join fuel = some s' → s'.AtRest
  stop_join_returns : ∃ s', s.stop.join 4 = some s'
  /-- A request to stop holds until the next start. -/
  not_lost : asked = true → s.stopRequested = true
  no_further_pass : s.stopRequested = true → ∀ e k, s.worker = some ⟨e, .passing k⟩ →
    ∃ e', s.work.worker = some ⟨e', .closed .stopped⟩ ∧
      s.work.world.solution = s.world.solution
  /-- A search stops for no other reason than a request after its start, or that there was nothing
  to solve. -/
  stopped : ∀ e, s.worker = some ⟨e, .closed .stopped⟩ →
    asked = true ∨ Model.variableCount s.world.solution.model = 0

/-- Commands of the owner and steps of the worker in any order. -/
theorem controlled_of_life {world : World M α} {engine : Engine S M V α} {clock : Nat → α}
    (life : Life (of world engine clock) begun asked s) : Controlled begun asked s := by
  have h := life.orderly
  constructor
  case start_iff =>
    rw [← h.engine_iff]
    cases hengine : s.engine with
    | none => simp [start_of_none hengine]
    | some e => simp [start_of_engine hengine]
  case engine_iff => exact h.engine_iff
  case start_running =>
    intro s' hstart
    have hnext : Orderly true false s' := .start hstart
    obtain ⟨e, -, hworker, -⟩ := worker_of_start hstart
    have hworking : s'.isWorking = true := isWorking_of hworker
    exact ⟨(hnext.working hworking).2, hworking, stopRequested_of_start hstart⟩
  case running_iff => exact h.running_iff
  case announced =>
    intro hworking hend
    rcases h.work.resting hend with ⟨-, hfinished⟩ | ⟨hnever, -⟩
    · exact hfinished
    · rw [(h.working hworking).1] at hnever
      cases hnever
  case idle_iff =>
    cases hworking : s.isWorking with
    | true =>
      obtain ⟨hbegun, hstate⟩ := h.working hworking
      simp [hbegun, hstate]
    | false =>
      rcases h.resting hworking with ⟨hbegun, hfinished⟩ | ⟨hbegun, hidle⟩
      · rw [hbegun]
        refine ⟨fun hidle => ?_, nofun⟩
        rw [hidle] at hfinished
        cases hfinished
      · simp [hbegun, hidle]
  case change_running => exact fun hstate _ x => changeSolution_of_running x hstate
  case change_otherwise =>
    intro hstate β x b world hrun
    rw [changeSolution_of_not_running x hstate, hrun]
  case join => exact fun fuel s' hjoin => (h.join hjoin).2
  case solve =>
    intro fuel s' hsolve
    obtain ⟨s₁, hstart, hjoin⟩ := join_of_solve hsolve
    obtain ⟨hnext, hrest⟩ := (Orderly.start hstart).join hjoin
    refine ⟨hrest, ?_⟩
    have hend : s'.isWorking = false := by simp [isWorking, hrest.worker]
    rcases hnext.resting hend with ⟨-, hfinished⟩ | ⟨hnever, -⟩
    · exact hfinished
    · cases hnever
  case stop_join => exact fun fuel s' hjoin => (h.stop.join hjoin).2
  case stop_join_returns => exact exists_join_of_stop rfl
  case not_lost => exact h.not_lost
  case no_further_pass => exact fun hstop e k hworker => closed_of_stop hstop hworker
  case stopped =>
    intro e hworker
    have hstop := (h.closing e _ hworker).2 rfl
    cases hasked : asked with
    | true => exact .inl rfl
    | false => exact .inr (h.reason (isWorking_of hworker) hstop hasked).2

/-- The climber is asked to stop after its opening. -/
theorem controlled_of_life_climber :
    Life climber true true climbing.work.stop ∧ Controlled true true climbing.work.stop ∧
      ∃ s', climbing.work.stop.join 4 = some s' ∧ s'.state = .stopped ∧ s'.AtRest := by
  have life : Life climber true true climbing.work.stop :=
    ((Life.new.start (show climber.start = .ok climbing from rfl)).work).stop
  have hcontrolled := controlled_of_life life
  obtain ⟨s', hjoin⟩ := hcontrolled.stop_join_returns
  have hstate : (climbing.work.stop.join 4).map Solver.state = some .stopped := by decide +kernel
  have hjoin : climbing.work.stop.join 4 = some s' := hjoin
  rw [hjoin] at hstate
  exact ⟨life, hcontrolled, s', hjoin, Option.some.inj hstate, hcontrolled.join 4 s' hjoin⟩

end Solver

end LocalSearch
