import LocalSearch.Proofs.Search.Control
/-!
# Starting again

A search that has ended still has the engine: its worker keeps it until the owner waits for it. The
state says that no search runs as soon as the worker has announced the end, and until the owner has
waited a new search is refused as if one ran. Nothing else refuses a search.

* `Solver.Command`, `Solver.follow`: what the owner and the worker do, commands that are refused
  included.
* `Solver.unjoined`: whether a search was started that the owner has not waited for.
* `Solver.Restartable`: when a search can be started; `Solver.restartable_of_commands`.
-/

namespace LocalSearch.Solver

variable {S M V α : Type} [Scalar α] [Model M V α] [Strategy S M V α]
variable {s s' : Solver S M V α} {owed : Bool}

/-! ## Sequences of commands -/

/-- A command of the owner, or a step of the worker between two of them. To stop and wait is two
commands. -/
inductive Command (M α : Type)
  | work
  | start
  | stop
  | join (fuel : Nat)
  | solve (fuel : Nat)
  | change {β : Type} (x : Attempt (World M α) β)

/-- A solver after a command, which leaves it as it is if it is refused; `none` if the owner waits
for longer than a number of steps. -/
def follow (s : Solver S M V α) : Command M α → Option (Solver S M V α)
  | .work => some s.work
  | .start => some (s.start.toOption.getD s)
  | .stop => some s.stop
  | .join fuel => s.join fuel
  | .solve fuel => (s.solve fuel).toOption.getD (some s)
  | .change x =>
    match s.changeSolution x with
    | .ok _ s' => some s'
    | .error _ s' => some s'

/-- A solver after commands. -/
def followAll (s : Solver S M V α) (commands : List (Command M α)) : Option (Solver S M V α) :=
  commands.foldlM follow s

omit [Scalar α] in
/-- Whether the owner still has to wait for a search, after a command. -/
def owes (owed : Bool) : Command M α → Bool
  | .start => true
  | .join _ => false
  | .work => owed
  | .stop => owed
  | .solve _ => owed
  | .change _ => owed

/-- Whether a search was started that the owner has not waited for. -/
def unjoined (commands : List (Command M α)) : Bool :=
  commands.foldl owes false

/-! ## Who has the engine -/

omit [Scalar α] [Strategy S M V α] [Model M V α] in
theorem worker_takeBack (s : Solver S M V α) : s.takeBack.worker = none := by
  unfold takeBack
  split
  · assumption
  · rfl

theorem worker_of_join {fuel : Nat} (hjoin : s.join fuel = some s') : s'.worker = none := by
  obtain ⟨s₁, -, rfl⟩ := Option.map_eq_some_iff.1 hjoin
  exact worker_takeBack s₁

/-- No step of a worker gives its engine back. -/
theorem isSome_worker_work (s : Solver S M V α) : s.work.worker.isSome = s.worker.isSome := by
  have hworks := works_work s
  generalize s.work = s' at hworks ⊢
  cases hworks with
  | rests => rfl
  | announces hworker => exact (congrArg Option.isSome hworker).symm
  | opens hworker => exact (congrArg Option.isSome hworker).symm
  | passes hworker => exact (congrArg Option.isSome hworker).symm
  | aborts hworker => exact (congrArg Option.isSome hworker).symm
  | closes hworker => exact (congrArg Option.isSome hworker).symm

omit [Scalar α] [Strategy S M V α] [Model M V α] in
theorem worker_changeSolution {β : Type} (x : Attempt (World M α) β) (s : Solver S M V α) :
    match s.changeSolution x with
    | .ok _ s' => s'.worker = s.worker
    | .error _ s' => s'.worker = s.worker := by
  by_cases hstate : s.state = .running
  · rw [changeSolution_of_running x hstate]
  · rw [changeSolution_of_not_running x hstate]
    cases x s.world <;> rfl

/-- What holds between commands: a worker is there while the owner has to wait for a search. -/
structure Tidy (owed : Bool) (s : Solver S M V α) : Prop where
  orderly : ∃ begun asked, Orderly begun asked s ∧ (owed = true → begun = true)
  worker : s.worker.isSome = owed

omit [Scalar α] [Strategy S M V α] in
theorem tidy_of (world : World M α) (engine : Engine S M V α) (clock : Nat → α) :
    Tidy false (of world engine clock) :=
  ⟨⟨_, _, orderly_of world engine clock, nofun⟩, rfl⟩

omit [Scalar α] [Strategy S M V α] in
theorem tidy_of_start (hstart : s.start = .ok s') : Tidy true s' := by
  obtain ⟨e, -, hworker, -⟩ := worker_of_start hstart
  exact ⟨⟨_, _, .start hstart, fun _ => rfl⟩, congrArg Option.isSome hworker⟩

theorem Tidy.join (h : Tidy owed s) {fuel : Nat} (hjoin : s.join fuel = some s') :
    Tidy false s' := by
  obtain ⟨begun, asked, horderly, -⟩ := h.orderly
  exact ⟨⟨begun, asked, (horderly.join hjoin).1, nofun⟩,
    congrArg Option.isSome (worker_of_join hjoin)⟩

omit [Scalar α] [Strategy S M V α] in
/-- A search can be started unless the owner still has to wait for one. -/
theorem Tidy.start_iff (h : Tidy owed s) : (∃ s', s.start = .ok s') ↔ owed = false := by
  obtain ⟨begun, asked, horderly, -⟩ := h.orderly
  rw [← h.worker, Option.isSome_eq_false_iff, Option.isNone_iff_eq_none, ← horderly.engine_iff]
  cases hengine : s.engine with
  | none => simp [start_of_none hengine]
  | some e => simp [start_of_engine hengine]

omit [Scalar α] [Strategy S M V α] in
theorem Tidy.start_of_owed (h : Tidy true s) :
    s.start = .error (.invalidState "the solver is already running") := by
  obtain ⟨begun, asked, horderly, -⟩ := h.orderly
  exact start_of_none (horderly.one_search.2 h.worker)

/-- One command. -/
theorem Tidy.follow (h : Tidy owed s) (command : Command M α)
    (hfollow : s.follow command = some s') : Tidy (owes owed command) s' := by
  obtain ⟨begun, asked, horderly, hbegun⟩ := h.orderly
  cases command with
  | work =>
    cases hfollow
    exact ⟨⟨begun, asked, horderly.work, hbegun⟩, (isSome_worker_work s).trans h.worker⟩
  | start =>
    cases hfollow
    cases hstart : s.start with
    | ok s' => exact tidy_of_start hstart
    | error e =>
      -- what is refused was owed before
      cases owed with
      | true => exact h
      | false =>
        obtain ⟨s', hok⟩ := h.start_iff.2 rfl
        rw [hstart] at hok
        cases hok
  | stop =>
    cases hfollow
    exact ⟨⟨begun, true, horderly.stop, hbegun⟩, h.worker⟩
  | join fuel => exact h.join hfollow
  | solve fuel =>
    cases hsolve : s.solve fuel with
    | error e =>
      rw [Solver.follow, hsolve] at hfollow
      cases hfollow
      exact h
    | ok s₁ =>
      rw [Solver.follow, hsolve] at hfollow
      obtain rfl : s₁ = some s' := hfollow
      obtain ⟨s₁, hstart, hjoin⟩ := join_of_solve hsolve
      have howed : owed = false := h.start_iff.1 ⟨s₁, hstart⟩
      rw [howed]
      exact (tidy_of_start hstart).join hjoin
  | change x =>
    have hkept := horderly.changeSolution x
    have hworker := worker_changeSolution x s
    cases hchange : s.changeSolution x with
    | ok b s₁ =>
      rw [Solver.follow, hchange] at hfollow
      rw [hchange] at hkept hworker
      cases hfollow
      exact ⟨⟨begun, asked, hkept, hbegun⟩, (congrArg Option.isSome hworker).trans h.worker⟩
    | error failure s₁ =>
      rw [Solver.follow, hchange] at hfollow
      rw [hchange] at hkept hworker
      cases hfollow
      exact ⟨⟨begun, asked, hkept, hbegun⟩, (congrArg Option.isSome hworker).trans h.worker⟩

/-- Any number of commands, by induction. -/
theorem Tidy.followAll (h : Tidy owed s) (commands : List (Command M α))
    (hfollow : s.followAll commands = some s') : Tidy (commands.foldl owes owed) s' := by
  induction commands generalizing s owed with
  | nil =>
    cases hfollow
    exact h
  | cons command commands ih =>
    obtain ⟨s₁, hfirst, hrest⟩ := Option.bind_eq_some_iff.1 hfollow
    exact ih (h.follow command hfirst) hrest

/-! ## When a search can be started -/

/-- When a search can be started after commands. -/
structure Restartable (owed : Bool) (s : Solver S M V α) : Prop where
  start_iff : (∃ s', s.start = .ok s') ↔ owed = false
  refused : owed = true → s.start = .error (.invalidState "the solver is already running")
  /-- A search can be started whenever none runs, unless one has ended and the owner has not waited
  for it. -/
  when_resting_iff : (s.state ≠ .running → ∃ s', s.start = .ok s') ↔
    ¬(owed = true ∧ s.isWorking = false)
  /-- Such a search is over as the state says, and it is in the way until the owner waits. -/
  in_between : owed = true → s.isWorking = false → s.state.isFinished = true ∧
    ∀ n, (Solver.work^[n] s).start = .error (.invalidState "the solver is already running")
  /-- To wait for it takes no time, and keeps the state. -/
  join_at_once : s.isWorking = false → ∀ fuel, ∃ s', s.join (fuel + 1) = some s' ∧
    s'.state = s.state ∧ ∃ s'', s'.start = .ok s''
  after_join : ∀ fuel s', s.join fuel = some s' →
    s'.state ≠ .running ∧ ∃ s'', s'.start = .ok s''

theorem Tidy.iterate (h : Tidy owed s) (n : Nat) : Tidy owed (Solver.work^[n] s) := by
  induction n with
  | zero => exact h
  | succ n ih =>
    rw [Function.iterate_succ_apply']
    exact ih.follow .work rfl

theorem Tidy.restartable (h : Tidy owed s) : Restartable owed s := by
  obtain ⟨begun, asked, horderly, hbegun⟩ := h.orderly
  constructor
  case start_iff => exact h.start_iff
  case refused =>
    rintro rfl
    exact h.start_of_owed
  case when_resting_iff =>
    rw [h.start_iff, ne_eq, horderly.running_iff]
    cases owed <;> cases s.isWorking <;> simp
  case in_between =>
    rintro rfl hend
    refine ⟨?_, fun n => (h.iterate n).start_of_owed⟩
    rcases horderly.resting hend with ⟨-, hfinished⟩ | ⟨hnever, -⟩
    · exact hfinished
    · rw [hbegun rfl] at hnever
      cases hnever
  case join_at_once =>
    intro hend fuel
    have hjoin : s.join (fuel + 1) = some s.takeBack := by
      unfold Solver.join
      rw [workUntil_of_iterate (m := 0) hend (Nat.succ_pos fuel)]
      rfl
    refine ⟨_, hjoin, ?_, (h.join hjoin).start_iff.2 rfl⟩
    unfold takeBack
    split <;> rfl
  case after_join =>
    exact fun fuel s' hjoin => ⟨(horderly.join hjoin).2.state, (h.join hjoin).start_iff.2 rfl⟩

/-- Any commands of the owner, and any steps of the worker between them. -/
theorem restartable_of_commands (world : World M α) (engine : Engine S M V α) (clock : Nat → α)
    (commands : List (Command M α))
    (hfollow : (of world engine clock).followAll commands = some s) :
    Restartable (unjoined commands) s :=
  ((tidy_of world engine clock).followAll commands hfollow).restartable

/-- The climber is started, stopped after its opening, and left until its worker has ended. -/
def startAndStop : List (Command (Penalty ℚ) ℚ) := [.start, .work, .stop, .work, .work]

/-- The search of the climber has ended and the owner has not waited for it. -/
theorem restartable_climber :
    climber.followAll startAndStop = some climbing.work.stop.work.work ∧
      Restartable true climbing.work.stop.work.work ∧
      climbing.work.stop.work.work.isWorking = false :=
  ⟨rfl, restartable_of_commands _ _ _ startAndStop rfl, by decide +kernel⟩

/-- That no search runs is not enough for a search to start. -/
theorem not_start_of_resting :
    ¬∀ (commands : List (Command (Penalty ℚ) ℚ))
      (s : Solver (AnyStrategy (Generator Empty ℚ) ℚ) (Penalty ℚ) Nat ℚ),
      climber.followAll commands = some s → s.state ≠ .running → ∃ s', s.start = .ok s' := by
  intro h
  have hstate : climbing.work.stop.work.work.state ≠ .running := by decide +kernel
  have hrefused : climbing.work.stop.work.work.start =
      .error (.invalidState "the solver is already running") := start_of_none rfl
  obtain ⟨s', hstart⟩ := h startAndStop climbing.work.stop.work.work rfl hstate
  rw [hrefused] at hstart
  cases hstart

end LocalSearch.Solver
