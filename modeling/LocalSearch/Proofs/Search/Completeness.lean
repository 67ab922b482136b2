import LocalSearch.Proofs.Model.Commit
import LocalSearch.Proofs.Search.Run
import LocalSearch.Proofs.Selection.Kinds
/-!
# Complete assignments stay complete

Once a search has come to a complete assignment, every pass starts with one, and the best state is
complete as well. Three things could spoil that: going back to the best state, a restart, and a
proposal that leaves a variable without a value.

* `Solution.Recorded`: the snapshot of the best state describes the assignment that the model keeps.
* `Solution.Steady`: a complete assignment has been kept as the best one. This holds before every
  pass; it makes going back harmless.
* `Solution.Settled`: the assignment and the best assignment are complete. Strategies from a
  configuration do not restart then, and their proposals displace nothing.
* `Engine.opening_steady`, `Engine.turn_keeps`: what the opening establishes and a turn keeps.
* `Solver.staysComplete`: what follows for the searches on any model with tables.
-/

namespace LocalSearch

open Act
open Model.Tables (assigned kept clash)

variable {M V α : Type} [Scalar α] [Model M V α] [Model.Tabular M]

namespace Solution

omit [Scalar α] in
/-- The snapshot of the best state, if there is one, describes the assignment that the model keeps,
and that has no clash. -/
def Recorded (s : Solution M α) : Prop :=
  ∀ b, s.best = some b → ∃ k, kept s.model = some k ∧ k.ClashFree (clash s.model) ∧
    (b.complete = true ↔ k.openCount = 0)

omit [Scalar α] in
/-- Nothing clashes, and a complete assignment has been kept as the best one. -/
structure Steady (s : Solution M α) : Prop where
  sound : Model.Sound s.model
  recorded : s.Recorded
  complete : Model.unassignedCount s.model = 0 → s.isBestComplete = true

omit [Scalar α] in
/-- The assignment and the best assignment are complete. -/
structure Settled (s : Solution M α) : Prop where
  steady : s.Steady
  complete : Model.unassignedCount s.model = 0

variable {s s' : Solution M α}

/-! ## Going back and taking values -/

omit [Scalar α] in
/-- Nothing changed but the assignment and the counters. -/
theorem Recorded.of_becomes {a : Table V} (hs : s.Recorded) (hbest : s'.best = s.best)
    (h : Model.Becomes s.model a s'.model) : s'.Recorded := by
  intro b hb
  obtain ⟨k, hk, hfree, hcomplete⟩ := hs b (hbest ▸ hb)
  refine ⟨k, h.kept.trans hk, ?_, hcomplete⟩
  rw [h.clash]
  exact hfree

omit [Scalar α] in
theorem keptByRestore_steady : KeptByRestore (Steady : Solution M α → Prop) := by
  intro s hs
  unfold restoreBest
  cases hbest : s.best with
  | none => exact hs
  | some b =>
    obtain ⟨k, hk, hfree, hcomplete⟩ := hs.recorded b hbest
    have hbecomes := Model.Tabular.restoreBest_becomes hk
    refine ⟨.of_becomes hfree hbecomes, hs.recorded.of_becomes hbest.symm hbecomes, fun hzero => ?_⟩
    rw [Model.Tabular.unassignedCount_eq, hbecomes.assigned] at hzero
    show b.complete = true
    exact hcomplete.2 hzero

omit [Scalar α] in
theorem keptByUnassign_steady : KeptByUnassign (Steady : Solution M α → Prop) := by
  intro s v m hs h
  obtain ⟨hlt, hbecomes⟩ := Model.Tabular.unassign_eq_ok h
  refine ⟨Model.invariant_sound.unassign hs.sound h, hs.recorded.of_becomes rfl hbecomes,
    fun hzero => ?_⟩
  -- afterwards the variable is without a value, so nothing is claimed of the assignment
  have hopen : (assigned m).openCount ≠ 0 := by
    rw [hbecomes.assigned]
    exact Table.openCount_ne_zero (List.getElem?_set_self hlt)
  rw [Model.Tabular.unassignedCount_eq] at hzero
  exact absurd hzero hopen

omit [Scalar α] in
theorem keptByRestore_settled : KeptByRestore (Settled : Solution M α → Prop) := by
  intro s hs
  refine ⟨keptByRestore_steady s hs.steady, ?_⟩
  unfold restoreBest
  cases hbest : s.best with
  | none => exact hs.complete
  | some b =>
    -- the best state is complete because the current one is
    obtain ⟨k, hk, -, hcomplete⟩ := hs.steady.recorded b hbest
    have hb : b.complete = true := by
      simpa [isBestComplete, hbest] using hs.steady.complete hs.complete
    show Model.unassignedCount (Model.restoreBest s.model) = 0
    rw [Model.Tabular.unassignedCount_eq, (Model.Tabular.restoreBest_becomes hk).assigned]
    exact hcomplete.1 hb

/-- Keeping a state as the best one settles whether the best one is complete. -/
theorem Saved.steady (h : s.Saved s') (hsound : Model.Sound s.model) :
    s'.Steady ∧ Model.unassignedCount s'.model = Model.unassignedCount s.model := by
  obtain ⟨b, hb, rfl⟩ := h
  obtain ⟨-, -, hcomplete⟩ := of_snapshot_eq_ok hb
  have hcount : Model.unassignedCount (Model.saveBest s.model) = Model.unassignedCount s.model := by
    rw [Model.Tabular.unassignedCount_eq, Model.Tabular.unassignedCount_eq,
      Model.Tabular.assigned_saveBest]
  have hiff : b.complete = true ↔ (assigned s.model).openCount = 0 := by
    rw [hcomplete, ← Model.Tabular.unassignedCount_eq, ← hcount]
    exact beq_iff_eq
  refine ⟨⟨?_, ?_, fun hzero => ?_⟩, hcount⟩
  · show Table.ClashFree _ _
    rw [Model.Tabular.clash_saveBest, Model.Tabular.assigned_saveBest]
    exact hsound
  · rintro _ ⟨⟩
    refine ⟨assigned s.model, Model.Tabular.kept_saveBest _, ?_, hiff⟩
    show Table.ClashFree (clash (Model.saveBest s.model)) _
    rw [Model.Tabular.clash_saveBest]
    exact hsound
  · have hzero : Model.unassignedCount (Model.saveBest s.model) = 0 := hzero
    rw [hcount, Model.Tabular.unassignedCount_eq] at hzero
    exact hiff.2 hzero

end Solution

/-! ## The steps of a search -/

namespace Engine

/-- A complete assignment is kept as the best one unless the best one is complete. -/
theorem isBestComplete_of_not_due {S : Type} {e : Engine S M V α} {s : Solution M α}
    (hgeneral : e.comparator = .general) (hs : s.Recorded) (hdue : ¬ e.Due s)
    (hzero : Model.unassignedCount s.model = 0) : s.isBestComplete = true := by
  -- an incomplete best state would have been replaced: no limit forbids a complete one, and it is
  -- better
  refine Decidable.byContradiction fun hincomplete => hdue ⟨?_, ?_⟩
  · rw [hzero]
    simp only [GeneralConfig.withinLimit, Bool.or_eq_true, decide_eq_true_eq]
    omega
  · rw [hgeneral]
    unfold Comparator.general
    dsimp only
    cases hbest : s.best with
    | none => rfl
    | some b =>
      obtain ⟨k, hk, -, hcomplete⟩ := hs b hbest
      have hopen : k.openCount ≠ 0 := fun h => hincomplete (by
        simpa [Solution.isBestComplete, hbest] using hcomplete.2 h)
      rw [Model.Tabular.bestUnassignedCount_eq hk, hzero]
      dsimp only
      rw [if_neg hopen.symm]
      simpa [Nat.pos_iff_ne_zero] using hopen

variable {G : Type} [MoveGenerator G M V α]
  {e e' : Engine (AnyStrategy G α) M V α} {s s' : Solution M α} {p : Proposal V α} {time : α}

/-- An engine with a ready strategy that compares by unassigned variables first. -/
def Ready (e : Engine (AnyStrategy G α) M V α) : Prop :=
  e.strategy.Ready ∧ e.comparator = .general

/-- After an opportunity to keep the state a complete assignment has been kept. -/
theorem SaveStep.steady (h : SaveStep e s e' s') (he : e.Ready) (hsound : Model.Sound s.model)
    (hs : s.Recorded) : e'.Ready ∧ s'.Steady ∧
      Model.unassignedCount s'.model = Model.unassignedCount s.model := by
  cases h with
  | skipped hdue =>
    exact ⟨he, ⟨hsound, hs, isBestComplete_of_not_due he.2 hs hdue⟩, rfl⟩
  | saved hdue hsaved =>
    exact ⟨⟨AnyStrategy.ready_bestSaved he.1, he.2⟩, hsaved.steady hsound⟩

/-- A commit keeps complete assignments complete if the proposal is one that a strategy supplies. -/
theorem Committed.steady (h : Committed p time e s e' s') (he : e.Ready) (hs : s.Steady) :
    e'.Ready ∧ s'.Steady ∧ (p.Supplied Candidate.Fits s.model →
      Model.unassignedCount s.model = 0 → Model.unassignedCount s'.model = 0) := by
  have hsound {c : Commit α} {m : M} (hrun : p.commit s.model = .ok c m) : Model.Sound m :=
    (Proposal.commit_ensures Model.invariant_sound p).of_ok hs.sound hrun
  have hrecorded {c : Commit α} {m : M} (hrun : p.commit s.model = .ok c m) :
      Solution.Recorded (Solution.update { s with model := m } time) := by
    have hbecomes := (Proposal.commit_ensures (Model.invariant_becomes s.model) p).of_ok
      ⟨rfl, rfl, rfl⟩ hrun
    exact hs.recorded.of_becomes rfl hbecomes
  cases h with
  | applied hrun hsave =>
    obtain ⟨he', hs', hcount⟩ := hsave.steady he (hsound hrun) (hrecorded hrun)
    refine ⟨he', hs', fun hp hzero => ?_⟩
    rw [hcount]
    exact (Proposal.commit_complete hs.sound hp hzero).of_ok rfl hrun
  | @rejected delta m hrun =>
    have hbecomes := (Proposal.commit_rejected hs.sound p).of_ok rfl hrun delta rfl
    have hcount : Model.unassignedCount m = Model.unassignedCount s.model := by
      rw [Model.Tabular.unassignedCount_eq, Model.Tabular.unassignedCount_eq, hbecomes.assigned]
    refine ⟨he, ⟨hsound hrun, hrecorded hrun, fun hzero => ?_⟩, fun _ hzero => hcount.trans hzero⟩
    exact hs.complete (hcount.symm.trans hzero)

theorem Passed.steady {Ψ : M → Proposal V α → Prop} (h : Passed Ψ time e s e' s') (he : e.Ready)
    (hs : s.Steady) : e'.Ready ∧ s'.Steady := by
  cases h with
  | idle => exact ⟨he, hs.sound, hs.recorded, hs.complete⟩
  | committed _ h => exact ⟨(h.steady he hs).1, (h.steady he hs).2.1⟩

theorem Passed.settled (h : Passed (Proposal.Supplied Candidate.Fits) time e s e' s')
    (he : e.Ready) (hs : s.Settled) : e'.Ready ∧ s'.Settled := by
  obtain ⟨he', hs'⟩ := h.steady he hs.steady
  cases h with
  | idle => exact ⟨he', hs', hs.complete⟩
  | committed hp h => exact ⟨he', hs', (h.steady he hs.steady).2.2 hp hs.complete⟩

/-- The opening keeps a complete assignment as the best one. -/
theorem opening_steady :
    Leads (fun (e : Engine (AnyStrategy G α) M V α) (s : Solution M α) =>
        (e.strategy.Rotates ∧ e.comparator = .general) ∧ Model.Sound s.model ∧ s.Recorded)
      (opening : Act (Engine (AnyStrategy G α) M V α) M α Bool)
      (fun _ e s => e.Ready ∧ s.Steady) (fun _ _ => True) := by
  have hinit := leads_onStrategy (V := V)
    (F := fun e : Engine (AnyStrategy G α) M V α => e.comparator = .general) (fun _ _ h => h)
    (AnyStrategy.init_leads (I := fun s : Solution M α => Model.Sound s.model ∧ s.Recorded) (G := G))
  have hextensions := initExtensions_leads (M := M) (α := α) (V := V)
    (F := Ready (G := G) (M := M) (V := V) (α := α))
    (I := fun s : Solution M α => Model.Sound s.model ∧ s.Recorded) fun _ _ h => h
  refine (opening_leads (E := fun _ _ => True)
    (hinit.mono (fun _ _ h => ⟨h.1.2, h.1.1, h.2⟩) (fun _ _ _ h => ⟨⟨h.2.1, h.1⟩, h.2.2⟩)
      fun _ _ _ => trivial)
    (hextensions.mono_error fun _ _ _ => trivial) (fun _ _ _ _ => trivial)
    fun _ _ _ _ _ _ => trivial).mono_post ?_
  rintro _ _ _ ⟨⟨e, s, ⟨he, hs⟩, hsave⟩, -⟩
  obtain ⟨he', hs', -⟩ := hsave.steady he hs.1 hs.2
  exact ⟨he', hs'⟩

/-- A turn keeps what its pass keeps, if that survives a restart or is said of complete assignments
only. -/
theorem turn_keeps {I : Solution M α → Prop}
    (hG : MoveGenerator.Proposes G (Candidate.Fits (M := M) (V := V) (α := α)))
    (hrestore : KeptByRestore I)
    (hcase : KeptByUnassign I ∨ ∀ s, I s → Model.unassignedCount s.model = 0)
    (stop : Bool) (time : α)
    (hpassed : ∀ (e e' : Engine (AnyStrategy G α) M V α) (s s' : Solution M α), e.Ready → I s →
      Passed (Proposal.Supplied Candidate.Fits) time e s e' s' → e'.Ready ∧ I s') :
    Leads (fun e s => e.Ready ∧ I s)
      (turn stop time : Act (Engine (AnyStrategy G α) M V α) M α (Option Ending))
      (fun ending? e s => match ending? with
        | some _ => True
        | none => e.Ready ∧ I s) (fun _ _ => True) := by
  have hselect := leads_onStrategy (V := V)
    (F := fun e : Engine (AnyStrategy G α) M V α => e.comparator = .general) (fun _ _ h => h)
    (AnyStrategy.select_leads hG hrestore hcase fun _ _ hp => hp.unassignedCount_ne_zero)
  refine (turn_leads stop time (P := fun e s => e.Ready ∧ I s) (Q := fun e s => e.Ready ∧ I s)
    (E := fun _ _ => True) (hselect.mono (fun _ _ h => ⟨h.1.2, h.1.1, h.2⟩)
      (fun _ _ _ h => ⟨⟨⟨h.2.1, h.1⟩, h.2.2.1⟩, h.2.2.2⟩) fun _ _ _ => trivial)
    (hears_of (fun _ _ _ h => h) fun _ _ _ => trivial) fun _ _ _ _ _ _ _ _ => trivial).mono_post ?_
  intro ending? e' s' h
  cases ending? with
  | some ending => trivial
  | none =>
    obtain ⟨e, s, ⟨he, hs⟩, h⟩ := h
    exact hpassed e e' s s' he hs h

end Engine

/-! ## Searches -/

namespace Solver

variable {S : Type}

/-- If a search of a solver ever has a complete assignment before a pass, its best state is complete
then, and the assignment is complete before every later pass. -/
def StaysComplete [Strategy S M V α] (s : Solver S M V α) : Prop :=
  ∀ s₀ s₁ s₂ : Solver S M V α, s.start = .ok s₀ → Steps s₀ s₁ → s₁.BeforePass →
    Model.unassignedCount s₁.world.solution.model = 0 → Steps s₁ s₂ → s₂.BeforePass →
    s₁.world.solution.isBestComplete = true ∧ Model.unassignedCount s₂.world.solution.model = 0

variable {G : Type} [MoveGenerator G M V α] {s : Solver (AnyStrategy G α) M V α}
  {e : Engine (AnyStrategy G α) M V α}

theorem staysComplete
    (hG : MoveGenerator.Proposes G (Candidate.Fits (M := M) (V := V) (α := α)))
    (hengine : s.engine = some e) (hstrategy : e.strategy.Rotates)
    (hgeneral : e.comparator = .general) (hsound : Model.Sound s.world.solution.model)
    (hrecorded : s.world.solution.Recorded) : s.StaysComplete := by
  rintro s₀ s₁ s₂ hstart h₁ ⟨e₁, pass₁, hworker₁⟩ hzero h₂ ⟨e₂, pass₂, hworker₂⟩
  obtain ⟨_, hengine', hworker, hworld⟩ := worker_of_start hstart
  cases hengine.symm.trans hengine'
  have hstarted : During (fun e s => (e.strategy.Rotates ∧ e.comparator = .general) ∧
      Model.Sound s.model ∧ s.Recorded) (fun e s => e.Ready ∧ s.Steady) (fun _ _ => True) s₀ := by
    intro w hw
    cases hworker.symm.trans hw
    rw [hworld]
    exact ⟨⟨hstrategy, hgeneral⟩, hsound, hrecorded⟩
  -- first up to the complete assignment, with what survives restarts as well
  have hsteady : e₁.Ready ∧ s₁.world.solution.Steady :=
    hstarted.steps Engine.opening_steady
      (fun stop time => Engine.turn_keeps hG Solution.keptByRestore_steady
        (.inl Solution.keptByUnassign_steady) stop time fun _ _ _ _ he hs h => h.steady he hs)
      h₁ _ hworker₁
  -- then on from there, where no restart comes any more
  have hcomplete : During (fun _ _ => False) (fun e s => e.Ready ∧ s.Settled)
      (fun _ _ => True) s₁ := by
    intro w hw
    cases hworker₁.symm.trans hw
    exact ⟨hsteady.1, hsteady.2, hzero⟩
  have hsettled : e₂.Ready ∧ s₂.world.solution.Settled :=
    hcomplete.steps (fun _ h => h.elim)
      (fun stop time => Engine.turn_keeps hG Solution.keptByRestore_settled
        (.inr fun _ hs => hs.complete) stop time fun _ _ _ _ he hs h => h.settled he hs)
      h₂ _ hworker₂
  exact ⟨hsteady.2.complete hzero, hsettled.2.complete⟩

end Solver

end LocalSearch
