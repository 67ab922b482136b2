import LocalSearch.Proofs.Act
import LocalSearch.Proofs.Candidates
import LocalSearch.Strategy.Basic
/-!
# What a selection does

A strategy may change the solution while it looks for a proposal, and may end with an error. What
holds of every selection is stated for a property `I` of solutions that it keeps and a relation in
which a proposal stands to the model *as the selection leaves it*.

* `Strategy.Acts`, `Strategy.Reaches`: what may become of a strategy.
* `Strategy.Selects`: a selection keeps `I`, however it ends, and its proposal stands in the
  relation.
* `Proposal.From`: a proposal made of a candidate, related to the model as the candidate is.
* `drawCandidate_ensures`: a draw leaves the solution alone, and its candidate was proposed for the
  model of that solution.
-/

namespace LocalSearch

open Act

variable {S G M V α : Type} [Scalar α]

/-- Whatever holds of the solution by `I` holds after a selection as well, and a proposal stands in
the relation `Ψ` to the model of the solution that the selection leaves. -/
def Strategy.Selects (S : Type) [Strategy S M V α] (I : Solution M α → Prop)
    (Ψ : M → Proposal V α → Prop) : Prop :=
  Ensures I (Strategy.select : Act S M α (Option (Proposal V α)))
    (fun p? s => I s ∧ ∀ p, p? = some p → Ψ s.model p) I

section

variable [Strategy S M V α]

omit [Scalar α] in
variable (M) in
/-- What a search may do with a strategy that it has prepared, in any world. A call may also fail,
and leaves the strategy in some state all the same. -/
inductive Strategy.Acts : S → S → Prop
  | select (t : S) (w : World M α) :
    Acts t ((Strategy.select : Act S M α (Option (Proposal V α))).after (t, w)).1
  | bestSaved (t : S) : Acts t (Strategy.bestSaved M t)
  | resetScores (t : S) : Acts t (Strategy.resetScores M t)

variable (M) in
/-- What a strategy may become in any number of searches. -/
inductive Strategy.Reaches (t : S) : S → Prop
  | refl : Reaches t t
  | init {t' : S} (w : World M α) (h : Reaches t t') :
    Reaches t ((Strategy.init : Act S M α Unit).after (t', w)).1
  | act {t' t'' : S} (h : Reaches t t') (hact : Strategy.Acts M t' t'') : Reaches t t''

end

omit [Scalar α] in
/-- A sequence takes its parts as they are; there is at least one selector. -/
theorem Sequence.of_withScores_eq_ok {selectors : List (Selector G α)} {config : SequenceConfig}
    {scores : Scores α} {s : Sequence G α} (h : withScores selectors config scores = .ok s) :
    selectors ≠ [] ∧ s = ⟨selectors, scores, config, false⟩ := by
  unfold withScores at h
  split at h
  · cases h
  · rename_i hselectors
    split at h
    · cases h
    · cases h
      exact ⟨by simpa using hselectors, rfl⟩

/-- A proposal that was made of a candidate. -/
def Proposal.From (Φ : M → Candidate V α → Prop) (model : M) : Proposal V α → Prop
  | .move m => Φ model (.eager m)
  | .lazy c _ => Φ model (.lazy c)

/-- A property that survives going back to the best state. -/
def KeptByRestore [Model M V α] (I : Solution M α → Prop) : Prop :=
  ∀ s, I s → I s.restoreBest

/-- A property that survives taking a variable its value. -/
def KeptByUnassign [Model M V α] (I : Solution M α → Prop) : Prop :=
  ∀ s v m, I s → Model.unassign s.model v = .ok m → I { s with model := m }

omit [Scalar α] in
/-- Going back to the best state does to the solution in a world what it does to the solution. -/
@[simp]
theorem World.solution_restoreBest [Model M V α] (w : World M α) :
    w.restoreBest.solution = w.solution.restoreBest := by
  unfold World.restoreBest Solution.restoreBest
  cases w.solution.best with
  | none => rfl
  | some best => rfl

/-! ## Draws -/

variable [MoveGenerator G M V α] {Φ : M → Candidate V α → Prop} {P E : Solution M α → Prop}

omit [Scalar α] in
theorem Sequence.propose_ensures (hG : MoveGenerator.Proposes G Φ) (hE : ∀ s, P s → E s)
    (index : Nat) :
    Ensures P (Sequence.propose index : Act (Sequence G α) M α (Option (Candidate V α)))
      (fun c? s => P s ∧ ∀ c, c? = some c → Φ s.model c) E := by
  unfold Sequence.propose
  refine ensures_get_bind fun (s, w) hw => ?_
  refine ensures_quiet_bind (by simp) (fun _ hs => by rw [hs]; exact hE _ hw) fun selector => ?_
  refine Attempt.ensures_focus fun t ht => Attempt.ensures_focus fun u _ => ?_
  have hsolution : t.2.solution = w.solution := ht
  refine (Selector.propose_ensures hG w.solution.model).mono (fun _ _ => trivial) ?_
    fun _ _ => by rw [hsolution]; exact hE _ hw
  intro c? u hc
  dsimp only
  rw [hsolution]
  exact ⟨hw, hc⟩

omit [MoveGenerator G M V α] in
@[simp]
theorem Sequence.quiet_pick (chain : List Nat) :
    Quiet (Sequence.pick chain : Act (Sequence G α) M α Nat) := by
  refine quiet_of_ensures fun solution => ?_
  unfold Sequence.pick
  refine ensures_get_bind fun (s, w) hw => ?_
  subst hw
  refine ensures_quiet_bind (by simp) (fun _ h => h) fun (picked, ended, random) => ?_
  refine Ensures.bind (Q := fun _ => (· = w.solution)) (ensures_set fun _ _ => rfl) fun _ => ?_
  exact ensures_quiet (by simp) fun _ h => h

/-- A draw leaves the solution alone, and its candidate was proposed for its model. -/
theorem drawCandidate_ensures (hG : MoveGenerator.Proposes G Φ) (hE : ∀ s, P s → E s) :
    Ensures P (drawCandidate : Act (Heuristic G α) M α (Drawn V α))
      (fun d s => P s ∧ ∀ i c, d = .candidate i c → Φ s.model c) E := by
  unfold drawCandidate Heuristic.draw
  simp only [bind_assoc, pure_bind]
  refine ensures_quiet_bind (by simp) hE fun h => ?_
  refine ensures_quiet_bind (by simp [Heuristic.onSequence]) hE fun index => ?_
  refine Ensures.bind (ensures_within (Sequence.propose_ensures hG hE index)) fun c? => ?_
  cases c? with
  | none =>
    refine ensures_quiet_bind (by simp) (fun s hs => hE s hs.1) fun _ => ?_
    exact ensures_pure fun s hs => ⟨hs.1, fun _ _ h => by cases h⟩
  | some c =>
    refine ensures_pure fun s hs => ⟨hs.1, fun i c' h => ?_⟩
    cases h
    exact hs.2 c rfl

/-! ## What follows a draw -/

omit [MoveGenerator G M V α] in
@[simp]
theorem quiet_rewardMove (index : Nat) (delta : α) :
    Quiet (rewardMove index delta : Act (Heuristic G α) M α Unit) := by
  simp [rewardMove]

omit [Scalar α] [MoveGenerator G M V α] in
@[simp]
theorem quiet_reportAccept (strategy : String) (index : Nat) (delta : α)
    (more : Unit → List (String × FieldValue α)) :
    Quiet (reportAccept strategy index delta more : Act (Heuristic G α) M α Unit) := by
  simp [reportAccept]

end LocalSearch
