import LocalSearch.Proofs.Selection.Basic
import LocalSearch.Strategy.GreatDeluge
import LocalSearch.Strategy.HillClimbing
import LocalSearch.Strategy.SimulatedAnnealing
/-!
# Selections of the acceptance strategies

Hill climbing and the great deluge leave the solution alone. Annealing goes back to the best state
when a period of its schedule is over, and draws the candidate only then; so the candidates of all
three are judged and proposed on the model for which they were drawn.

* `HillClimbing.selects`, `GreatDeluge.selects`: for any property of the solution.
* `SimulatedAnnealing.selects`: for a property that survives going back to the best state.
-/

namespace LocalSearch

open Act

variable {S G M V α : Type} [Scalar α] [MoveGenerator G M V α] {Φ : M → Candidate V α → Prop}
  {I P E : Solution M α → Prop}

/-- What an attempt leaves: the property that held before, and with an answer the relation of the
proposal to the model. -/
def Answered (I : Solution M α → Prop) (Φ : M → Candidate V α → Prop)
    (answer? : Option (Option (Proposal V α))) (s : Solution M α) : Prop :=
  match answer? with
  | none => I s
  | some p? => I s ∧ ∀ p, p? = some p → p.From Φ s.model

omit [Scalar α] [MoveGenerator G M V α] in
theorem answered_nothing {s : Solution M α} (h : I s) : Answered I Φ (some none) s :=
  ⟨h, fun _ hp => by cases hp⟩

omit [Scalar α] [MoveGenerator G M V α] in
theorem answered_proposal {s : Solution M α} {p : Proposal V α} (h : I s)
    (hp : p.From Φ s.model) : Answered I Φ (some (some p)) s :=
  ⟨h, fun _ h => by cases h; exact hp⟩

omit [Scalar α] [MoveGenerator G M V α] in
theorem answered_none (s : Solution M α) : Answered I Φ none s ↔ I s := Iff.rfl

omit [Scalar α] [MoveGenerator G M V α] in
/-- What is done quietly before a drawn move is offered. -/
theorem move_ensures {x : Act S M α Unit} {index : Nat} {m : Move V α} (hx : Quiet x) :
    Ensures (fun s => I s ∧ ∀ i c, Drawn.candidate index (.eager m) = .candidate i c → Φ s.model c)
      (x >>= fun _ => pure (some (some (.move m)))) (Answered I Φ) I := by
  refine ensures_quiet_bind hx (fun _ h => h.1) fun _ => ?_
  exact ensures_pure fun s hs => answered_proposal hs.1 (hs.2 index _ rfl)

omit [Scalar α] [MoveGenerator G M V α] in
/-- A draw after which only a candidate is counted. -/
theorem ensures_drawn {x : Act S M α (Drawn V α)} {k : Drawn V α → Act S M α (Drawn V α)}
    {count : Act S M α Unit}
    (hx : Ensures I x (fun d s => I s ∧ ∀ i c, d = .candidate i c → Φ s.model c) I)
    (hcount : Quiet count) (hyield : k .yield = pure .yield) (hempty : k .empty = pure .empty)
    (hcandidate : ∀ i c, k (.candidate i c) = count >>= fun _ => pure (.candidate i c)) :
    Ensures I (x >>= k) (fun d s => I s ∧ ∀ i c, d = .candidate i c → Φ s.model c) I := by
  refine hx.bind fun d => ?_
  cases d with
  | yield =>
    rw [hyield]
    exact ensures_pure fun s hs => hs
  | empty =>
    rw [hempty]
    exact ensures_pure fun s hs => hs
  | candidate i c =>
    rw [hcandidate]
    refine ensures_quiet_bind hcount (fun _ h => h.1) fun _ => ?_
    exact ensures_pure fun s hs => hs

omit [Scalar α] [MoveGenerator G M V α] in
/-- Attempts until one has an answer, which is the proposal. What an attempt without an answer leaves
is what the next one starts from. -/
theorem ensures_attempts {x : Act S M α (Option (Option (Proposal V α)))}
    {k : Option (Option (Proposal V α)) → Act S M α (Option (Proposal V α))}
    (hx : Ensures I x (Answered I Φ) I) (n : Nat) (hsome : ∀ p?, k (some p?) = pure p?)
    (hnone : Ensures I (k none) (fun p? s => I s ∧ ∀ p, p? = some p → p.From Φ s.model) I) :
    Ensures I (Attempt.firstOf x n >>= k)
      (fun p? s => I s ∧ ∀ p, p? = some p → p.From Φ s.model) I := by
  refine (ensures_firstOf hx answered_none n).bind fun a? => ?_
  cases a? with
  | none => exact hnone
  | some p? =>
    rw [hsome]
    exact ensures_pure fun s hs => hs

/-! ## Hill climbing -/

namespace HillClimbing

theorem attempt_ensures (hG : MoveGenerator.Proposes G Φ) :
    Ensures I (attempt : Act (HillClimbing G α) M α _) (Answered I Φ) I := by
  unfold attempt
  refine ensures_quiet_bind (by simp) (fun _ h => h) fun _ => ?_
  refine ensures_quiet_bind (by simp) (fun _ h => h) fun h => ?_
  split
  · refine ensures_quiet_bind (by simp) (fun _ h => h) fun _ => ?_
    refine ensures_quiet_bind (by simp) (fun _ h => h) fun _ => ?_
    exact ensures_pure fun _ => answered_nothing
  · refine Ensures.bind (ensures_within (drawCandidate_ensures hG fun _ h => h)) fun d => ?_
    cases d with
    | yield => exact ensures_pure fun s hs => hs.1
    | empty => exact ensures_pure fun s hs => hs.1
    | candidate index c =>
      cases c with
      | lazy c => exact ensures_pure fun s hs => answered_proposal hs.1 (hs.2 index _ rfl)
      | eager m =>
        dsimp only
        split
        · exact move_ensures (by simp [onHeuristic])
        · refine ensures_quiet_bind (by simp [onHeuristic]) (fun _ h => h.1) fun _ => ?_
          exact ensures_pure fun s hs => hs.1

/-- Hill climbing leaves the solution alone. -/
theorem selects [Model M V α] (hG : MoveGenerator.Proposes G Φ) :
    Strategy.Selects (HillClimbing G α) I (Proposal.From Φ) := by
  show Ensures I select _ I
  unfold select
  refine ensures_quiet_bind (by simp) (fun _ h => h) fun h => ?_
  refine ensures_attempts (attempt_ensures hG) (h.maxIdle + 1) (fun _ => rfl) ?_
  exact ensures_pure fun s hs => ⟨hs, fun _ hp => by cases hp⟩

end HillClimbing

/-! ## Great deluge -/

namespace GreatDeluge

variable [Model M V α]

omit [MoveGenerator G M V α] [Model M V α] in
@[simp]
theorem quiet_step (reference : α) :
    Quiet (DelugeSchedule.step reference : Act (DelugeSchedule α) M α Bool) := by
  unfold DelugeSchedule.step
  refine Attempt.fixes_bind (by simp) fun s => ?_
  refine Attempt.fixes_bind (by simp) fun _ => ?_
  exact Attempt.fixes_ite (by simp) (by simp)

/-- A draw leaves the solution alone, and its candidate was proposed for its model. -/
theorem draw_ensures (hG : MoveGenerator.Proposes G Φ) :
    Ensures I (draw : Act (GreatDeluge G α) M α (Drawn V α))
      (fun d s => I s ∧ ∀ i c, d = .candidate i c → Φ s.model c) I := by
  unfold draw
  refine ensures_quiet_bind (by simp) (fun _ h => h) fun s => ?_
  refine ensures_quiet_bind (by simp) (fun _ h => h) fun reference => ?_
  -- the water level and its flags are parts of the strategy; only the draw looks at the solution
  refine ensures_quiet_bind (by simp) (fun _ h => h) fun before => ?_
  refine ensures_quiet_bind (by simp [onSchedule]) (fun _ h => h) fun raised => ?_
  refine ensures_quiet_bind (by simp) (fun _ h => h) fun d => ?_
  dsimp only
  split
  · refine ensures_quiet_bind (by simp) (fun _ h => h) fun _ => ?_
    exact ensures_pure fun s hs => ⟨hs, fun _ _ h => by cases h⟩
  · refine ensures_quiet_when (by simp) (fun _ h => h) fun _ => ?_
    refine ensures_quiet_when (by simp) (fun _ h => h) fun _ => ?_
    exact ensures_drawn (ensures_within (drawCandidate_ensures hG fun _ h => h)) (by simp) rfl rfl
      fun _ _ => rfl

theorem attempt_ensures (hG : MoveGenerator.Proposes G Φ) :
    Ensures I (attempt : Act (GreatDeluge G α) M α _) (Answered I Φ) I := by
  unfold attempt
  refine Ensures.bind (draw_ensures hG) fun d => ?_
  cases d with
  | yield => exact ensures_pure fun s hs => answered_nothing hs.1
  | empty => exact ensures_pure fun s hs => hs.1
  | candidate index c =>
    cases c with
    | lazy c =>
      refine ensures_quiet_bind (by simp) (fun _ h => h.1) fun _ => ?_
      exact ensures_pure fun s hs => answered_proposal hs.1 (hs.2 index _ rfl)
    | eager m =>
      refine ensures_quiet_bind (by simp) (fun _ h => h.1) fun s => ?_
      refine ensures_quiet_bind (by simp) (fun _ h => h.1) fun total => ?_
      refine ensures_quiet_bind (by simp) (fun _ h => h.1) fun d => ?_
      split
      · dsimp only
        split
        · refine ensures_quiet_bind (by simp) (fun _ h => h.1) fun _ => ?_
          refine ensures_quiet_bind (by simp [onHeuristic]) (fun _ h => h.1) fun _ => ?_
          refine ensures_quiet_bind (by simp) (fun _ h => h.1) fun _ => ?_
          exact move_ensures (by simp [onHeuristic])
        · refine ensures_quiet_bind (by simp [onHeuristic]) (fun _ h => h.1) fun _ => ?_
          refine ensures_quiet_bind (by simp) (fun _ h => h.1) fun _ => ?_
          exact move_ensures (by simp [onHeuristic])
      · refine ensures_quiet_bind (by simp [onHeuristic]) (fun _ h => h.1) fun _ => ?_
        exact ensures_pure fun s hs => hs.1

/-- The great deluge leaves the solution alone. -/
theorem selects (hG : MoveGenerator.Proposes G Φ) :
    Strategy.Selects (GreatDeluge G α) I (Proposal.From Φ) := by
  show Ensures I select _ I
  unfold select
  refine ensures_attempts (attempt_ensures hG) maxAttempts (fun _ => rfl) ?_
  refine ensures_quiet_bind (by simp) (fun _ h => h) fun _ => ?_
  refine ensures_quiet_bind (by simp) (fun _ h => h) fun _ => ?_
  exact ensures_pure fun s hs => ⟨hs, fun _ hp => by cases hp⟩

end GreatDeluge

/-! ## Simulated annealing -/

section

variable [Model M V α]

omit [Scalar α] [MoveGenerator G M V α] [Model M V α] in
@[simp]
theorem AnnealingSchedule.quiet_reportPeriod (name : String) (stats : AcceptStats) :
    Quiet (AnnealingSchedule.reportPeriod name stats : Act (AnnealingSchedule α) M α Unit) := by
  simp [AnnealingSchedule.reportPeriod]

omit [MoveGenerator G M V α] in
/-- An iteration of a schedule goes back to the best state if it says so, and otherwise leaves the
solution alone. -/
theorem AnnealingSchedule.step_ensures (hP : ∀ s, P s → I s)
    (hrestore : KeptByRestore I) :
    Ensures P (AnnealingSchedule.step : Act (AnnealingSchedule α) M α AnnealingTurn)
      (fun turn s => I s ∧ (turn.restored = false → P s)) I := by
  have hreports (turn : AnnealingTurn) (stats : AcceptStats) :
      Ensures (fun s => I s ∧ (turn.restored = false → P s))
        (do
          if turn.reheated then reportPeriod "reheat" stats
          if turn.cooled then reportPeriod "cool" stats
          return turn : Act (AnnealingSchedule α) M α AnnealingTurn)
        (fun turn s => I s ∧ (turn.restored = false → P s)) I := by
    dsimp only
    refine ensures_quiet_when (by simp) (fun _ h => h.1) fun _ => ?_
    refine ensures_quiet_when (by simp) (fun _ h => h.1) fun _ => ?_
    exact ensures_pure fun _ h => h
  unfold AnnealingSchedule.step
  refine ensures_quiet_bind (by simp) hP fun before => ?_
  dsimp only
  refine ensures_quiet_bind (by simp) hP fun _ => ?_
  -- only a turn that says so goes back, and `P` is lost only then
  cases hrestored : before.advance.2.restored with
  | false =>
    exact (hreports before.advance.2 before.stats).mono_pre fun s hs => ⟨hP s hs, fun _ => hs⟩
  | true =>
    refine Ensures.bind (Q := fun _ => I) (ensures_onWorld ?_) fun _ => ?_
    · exact Attempt.ensures_modify fun w hw => by
        rw [World.solution_restoreBest]
        exact hrestore _ (hP _ hw)
    refine ensures_quiet_bind (by simp) (fun _ h => h) fun _ => ?_
    exact (hreports before.advance.2 before.stats).mono_pre fun s hs => ⟨hs, fun h => by
      rw [hrestored] at h; cases h⟩

end

namespace SimulatedAnnealing

variable [Model M V α]

omit [MoveGenerator G M V α] [Model M V α] in
@[simp]
theorem quiet_accept (total reference delta : α) :
    Quiet (accept total reference delta : Act (SimulatedAnnealing G α) M α Bool) := by
  refine quiet_of_ensures fun solution => ?_
  unfold accept
  refine ensures_get_bind fun (a, w) hw => ?_
  exact Ensures.bind (Q := fun _ => (· = solution)) (ensures_set fun _ _ => hw) fun _ =>
    ensures_pure fun _ h => h

/-- A draw may go back to the best state first; its candidate was proposed for the model of the
solution that it leaves. -/
theorem draw_ensures (hG : MoveGenerator.Proposes G Φ)
    (hrestore : KeptByRestore I) :
    Ensures I (draw : Act (SimulatedAnnealing G α) M α (Drawn V α))
      (fun d s => I s ∧ ∀ i c, d = .candidate i c → Φ s.model c) I := by
  unfold draw
  refine Ensures.bind (Q := fun _ => I) (ensures_within ?_) fun turn => ?_
  -- the schedule may go back to the best state, but it does so before the candidate is drawn
  · exact (AnnealingSchedule.step_ensures (fun _ h => h) hrestore).mono_post fun _ _ h => h.1
  refine ensures_quiet_bind (by simp) (fun _ h => h) fun a => ?_
  split
  · refine ensures_quiet_bind (by simp) (fun _ h => h) fun _ => ?_
    exact ensures_pure fun s hs => ⟨hs, fun _ _ h => by cases h⟩
  · dsimp only
    refine ensures_quiet_when (by simp) (fun _ h => h) fun _ => ?_
    exact ensures_drawn (ensures_within (drawCandidate_ensures hG fun _ h => h)) (by simp) rfl rfl
      fun _ _ => rfl

theorem attempt_ensures (hG : MoveGenerator.Proposes G Φ)
    (hrestore : KeptByRestore I) :
    Ensures I (attempt : Act (SimulatedAnnealing G α) M α _) (Answered I Φ) I := by
  unfold attempt
  refine Ensures.bind (draw_ensures hG hrestore) fun d => ?_
  cases d with
  | yield => exact ensures_pure fun s hs => answered_nothing hs.1
  | empty => exact ensures_pure fun s hs => hs.1
  | candidate index c =>
    refine ensures_quiet_bind (by simp) (fun _ h => h.1) fun s => ?_
    refine ensures_quiet_bind (by simp) (fun _ h => h.1) fun reference => ?_
    cases c with
    | lazy c =>
      refine ensures_quiet_bind ?_ (fun _ h => h.1) fun seed => ?_
      · exact quiet_onWorld fun _ => Attempt.ensures_modifyGet fun _ hw => hw
      refine ensures_quiet_bind (by simp) (fun _ h => h.1) fun a => ?_
      exact ensures_pure fun s hs => answered_proposal hs.1 (hs.2 index _ rfl)
    | eager m =>
      refine ensures_quiet_bind (by simp) (fun _ h => h.1) fun s => ?_
      refine ensures_quiet_bind (by simp) (fun _ h => h.1) fun total => ?_
      refine ensures_quiet_bind (by simp) (fun _ h => h.1) fun accepted => ?_
      split
      · dsimp only
        split
        · refine ensures_quiet_bind (by simp [onHeuristic]) (fun _ h => h.1) fun _ => ?_
          refine ensures_quiet_bind (by simp) (fun _ h => h.1) fun _ => ?_
          exact move_ensures (by simp [onHeuristic])
        · refine ensures_quiet_bind (by simp [onHeuristic]) (fun _ h => h.1) fun _ => ?_
          refine ensures_quiet_bind (by simp) (fun _ h => h.1) fun _ => ?_
          exact move_ensures (by simp [onHeuristic])
      · refine ensures_quiet_bind (by simp [onHeuristic]) (fun _ h => h.1) fun _ => ?_
        exact ensures_pure fun s hs => hs.1

/-- Annealing goes back to the best state now and then, and leaves the solution alone otherwise. -/
theorem selects (hG : MoveGenerator.Proposes G Φ)
    (hrestore : KeptByRestore I) :
    Strategy.Selects (SimulatedAnnealing G α) I (Proposal.From Φ) := by
  show Ensures I select _ I
  unfold select
  refine ensures_attempts (attempt_ensures hG hrestore) maxAttempts (fun _ => rfl) ?_
  refine ensures_quiet_bind (by simp) (fun _ h => h) fun _ => ?_
  refine ensures_quiet_bind (by simp) (fun _ h => h) fun _ => ?_
  exact ensures_pure fun s hs => ⟨hs, fun _ hp => by cases hp⟩

end SimulatedAnnealing

end LocalSearch
