import LocalSearch.Proofs.Selection.Acceptance
import LocalSearch.Proofs.Selection.Construction
import LocalSearch.Strategy.Group
/-!
# Selections of group acceptance

A candidate is drawn and judged before the schedules advance, and the advance may take the solution
back to its best state. The vote then drops the candidate.

* `Group.decide_ensures`: a candidate is accepted only on the solution for which it was drawn.
* `Group.selects`: a proposal is an offer of construction or made of a candidate for the solution
  that the selection leaves.
-/

namespace LocalSearch.Group

open Act

variable {G M V α : Type} [Scalar α] [Model M V α] {I P : Solution M α → Prop}

omit [Model M V α] in
@[simp]
theorem quiet_advanceDeluge (reference : α) :
    Quiet (advanceDeluge reference : Act (Group G α) M α Unit) := by
  simp [advanceDeluge]

omit [Model M V α] in
@[simp]
theorem quiet_decideByDeluge (index : Nat) (delta total reference : α) :
    Quiet (decideByDeluge index delta total reference : Act (Group G α) M α Bool) := by
  unfold decideByDeluge
  refine Attempt.fixes_bind (by simp) fun g => ?_
  refine Attempt.fixes_ite (by simp) ?_
  dsimp only
  refine Attempt.fixes_ite ?_ (by simp)
  refine Attempt.fixes_bind (by simp) fun s => ?_
  exact Attempt.fixes_bind (by simp [onHeuristic]) fun _ => by simp

/-- An accepted move is judged on a solution that stays as it is. -/
theorem decideByVote_ensures (hP : ∀ s, P s → I s)
    (hrestore : KeptByRestore I) (s : AnnealingSchedule α)
    (delta total reference : α) :
    Ensures P (decideByVote s delta total reference : Act (Group G α) M α Decision)
      (fun d s => I s ∧ (d = .accepted → P s)) I := by
  unfold decideByVote
  refine ensures_get_bind fun (g, w) hw => ?_
  dsimp only
  refine Ensures.bind (Q := fun _ => P) (ensures_set fun _ _ => hw) fun _ => ?_
  split
  · exact ensures_pure fun s hs => ⟨hP s hs, fun h => by cases h⟩
  -- the move is judged by now; going back to the best state here would make its effect a stale one
  refine Ensures.bind (ensures_within (AnnealingSchedule.step_ensures hP hrestore)) fun turn => ?_
  refine ensures_quiet_bind (by simp) (fun _ h => h.1) fun _ => ?_
  split
  · exact ensures_pure fun s hs => ⟨hs.1, fun h => by cases h⟩
  · rename_i hrestored
    refine ensures_quiet_bind (by simp) (fun _ h => h.1) fun _ => ?_
    exact ensures_pure fun s hs => ⟨hs.1, fun _ => hs.2 (by simpa using hrestored)⟩

theorem decide_ensures (hP : ∀ s, P s → I s)
    (hrestore : KeptByRestore I) (index : Nat) (delta reference : α) :
    Ensures P (decide index delta reference : Act (Group G α) M α Decision)
      (fun d s => I s ∧ (d = .accepted → P s)) I := by
  unfold decide
  refine ensures_quiet_bind (by simp) hP fun s => ?_
  refine ensures_quiet_bind (by simp) hP fun total => ?_
  refine ensures_quiet_bind (by simp) hP fun g => ?_
  split
  · exact decideByVote_ensures hP hrestore _ delta total reference
  · refine ensures_quiet_bind (by simp) hP fun _ => ?_
    exact ensures_pure fun s hs => ⟨hP s hs, fun _ => hs⟩

omit [Scalar α] [Model M V α] in
@[simp]
theorem quiet_criterion (reference : α) :
    Quiet (criterion reference : Act (Group G α) M α (Criterion α)) := by
  refine quiet_of_ensures fun solution => ?_
  unfold criterion
  refine ensures_get_bind fun (g, w) hw => ?_
  exact Ensures.bind (Q := fun _ => (· = solution)) (ensures_set fun _ _ => hw) fun _ =>
    ensures_pure fun _ h => h

variable [MoveGenerator G M V α] {Φ : M → Candidate V α → Prop}

theorem attempt_ensures (hG : MoveGenerator.Proposes G Φ)
    (hrestore : KeptByRestore I) (reference : α) :
    Ensures I (attempt reference : Act (Group G α) M α (Option (Proposal V α)))
      (fun p? s => I s ∧ ∀ p, p? = some p → p.From Φ s.model) I := by
  have hnone {P : Solution M α → Prop} (hP : ∀ s, P s → I s) : Ensures P
      (pure none : Act (Group G α) M α (Option (Proposal V α)))
      (fun p? s => I s ∧ ∀ p, p? = some p → p.From Φ s.model) I :=
    ensures_pure fun s hs => ⟨hP s hs, fun _ h => by cases h⟩
  unfold attempt
  refine Ensures.bind (ensures_within (drawCandidate_ensures hG fun _ h => h)) fun d => ?_
  cases d with
  | yield => exact hnone fun _ h => h.1
  | empty => exact hnone fun _ h => h.1
  | candidate index c =>
    cases c with
    | lazy c =>
      refine ensures_quiet_bind (by simp) (fun _ h => h.1) fun rule => ?_
      exact ensures_pure fun s hs => ⟨hs.1, fun p hp => by cases hp; exact hs.2 index _ rfl⟩
    | eager m =>
      refine Ensures.bind (decide_ensures (fun _ h => h.1) hrestore index m.delta reference)
        fun decision => ?_
      cases decision with
      | dropped => exact hnone fun _ h => h.1
      | refused =>
        exact ensures_quiet_bind (by simp [onHeuristic]) (fun _ h => h.1) fun _ =>
          hnone fun _ h => h.1
      -- an accepted move has stayed on the solution for which it was drawn
      | accepted =>
        refine ensures_quiet_bind (by simp [onHeuristic]) (fun _ h => h.1) fun _ => ?_
        refine ensures_pure fun s hs => ⟨hs.1, fun p hp => ?_⟩
        cases hp
        exact (hs.2 rfl).2 index _ rfl

theorem selectByVote_ensures (hG : MoveGenerator.Proposes G Φ)
    (hrestore : KeptByRestore I) :
    Ensures I (selectByVote : Act (Group G α) M α (Option (Proposal V α)))
      (fun p? s => I s ∧ ∀ p, p? = some p → p.From Φ s.model) I := by
  unfold selectByVote
  refine ensures_quiet_bind (by simp) (fun _ h => h) fun s => ?_
  refine ensures_quiet_bind (by simp) (fun _ h => h) fun reference => ?_
  refine ensures_quiet_bind (by simp) (fun _ h => h) fun g => ?_
  refine ensures_quiet_when (by simp) (fun _ h => h) fun _ => ?_
  refine ensures_firstOf (attempt_ensures hG hrestore reference) ?_ maxAttempts
  exact fun s => ⟨fun h => h.1, fun h => ⟨h, fun _ hp => by cases hp⟩⟩

theorem selects (hG : MoveGenerator.Proposes G Φ)
    (hrestore : KeptByRestore I) :
    Strategy.Selects (Group G α) I
      (fun model p => p.From Φ model ∨ Construction.Offers model p) := by
  have hvote := (selectByVote_ensures (I := I) hG hrestore).mono_post fun p? s hs =>
    And.intro hs.1 fun p hp => Or.inl (b := Construction.Offers s.model p) (hs.2 p hp)
  show Ensures I select _ I
  unfold select
  refine ensures_quiet_bind (by simp) (fun _ h => h) fun g => ?_
  split
  · exact hvote
  -- construction goes first; only when it has nothing to offer is there a vote in the same call
  · refine Ensures.bind (ensures_within Construction.selects) fun p? => ?_
    cases p? with
    | some p =>
      exact ensures_pure fun s hs => ⟨hs.1, fun p' hp => by cases hp; exact .inr (hs.2 p rfl)⟩
    | none =>
      refine ensures_quiet_bind (by simp) (fun _ h => h.1) fun _ => ?_
      refine ensures_quiet_bind (by simp) (fun _ h => h.1) fun s => ?_
      refine ensures_quiet_bind (by simp) (fun _ h => h.1) fun _ => ?_
      exact hvote.mono_pre fun _ h => h.1

end LocalSearch.Group
