import LocalSearch.Proofs.Selection.Frame
/-!
# Selections without a restart

An orderly orchestrator does not restart on complete assignments. Nothing else counts a restart, so
the count stays as it is, even if a selection fails.

* `Orchestrator.phaseStep_restarts`: only the restart phase counts a restart.
* `AnyStrategy.select_restarts`: a selection that keeps a property of complete solutions, which some
  variable would lose with its value, leaves the count alone.
-/

namespace LocalSearch

open Act

namespace Orchestrator

variable {S M V α : Type} [Scalar α] [Model M V α] {r : Nat}

/-- So many restarts have been counted. -/
def Counted (r : Nat) (o : Orchestrator S α) (_ : Solution M α) : Prop :=
  o.restarts = r

theorem enterStage_counted (index : Nat) :
    Leads (Counted r) (enterStage index : Act (Orchestrator S α) M α Unit) (fun _ => Counted r)
      (Counted r) := by
  unfold enterStage
  refine Leads.bind (Q := fun _ => Counted r) (leads_change fun _ _ h => h) fun _ => ?_
  refine leads_part_bind_any fun o => leads_lift_bind (fun _ _ h => h) fun stage _ => ?_
  exact switchTo_leads (fun _ _ h => h) fun _ _ h => h

variable [Strategy S M V α] {I : Solution M α → Prop} {Ψ : M → Proposal V α → Prop}

omit [Scalar α] [Model M V α] in
theorem ask_counted (index : Nat) :
    Leads (Counted r) (ask index : Act (Orchestrator S α) M α (Option (Proposal V α)))
      (fun _ => Counted r) (Counted r) := by
  unfold ask
  refine leads_part_bind_any fun o => leads_lift_bind (fun _ _ h => h) fun stage _ => ?_
  exact leads_within_of_kept fun _ _ h => h

/-- Only the restart phase counts a restart. -/
theorem phaseStep_restarts (exhausted : Nat) :
    Leads (fun o s => Counted r o s ∧ o.phase ≠ .restart)
      (phaseStep exhausted : Act (Orchestrator S α) M α (Except Nat (Option (Proposal V α))))
      (fun _ => Counted r) (Counted r) := by
  unfold phaseStep
  refine leads_part_bind fun o s ⟨hr, hphase⟩ => ?_
  refine Leads.at (P := Counted r) ?_ hr
  cases hcase : o.phase with
  | restart => exact absurd hcase hphase
  | construction =>
    dsimp only
    refine Leads.bind (Q := fun _ => Counted r) (leads_within_of_kept fun _ _ h => h) fun p? => ?_
    refine leads_get_bind fun o w hr => ?_
    dsimp only
    refine Leads.bind (Q := fun _ => Counted r)
      (leads_set fun _ _ _ => (observe_restarts o _).trans hr) fun _ => ?_
    split
    · refine Leads.bind (Q := fun _ => Counted r)
        (switchTo_leads (fun _ _ h => h) fun _ _ h => h) fun _ => ?_
      exact leads_pure fun _ _ h => h
    split
    · exact leads_pure fun _ _ h => h
    · exact Leads.bind (enterStage_counted 0) fun _ => leads_pure fun _ _ h => h
  | hillClimbing | greatDeluge | simulatedAnnealing =>
    dsimp only
    refine leads_part_bind_any fun o => Leads.bind (ask_counted o.current) fun p? => ?_
    cases p? with
    | some p => exact leads_pure fun _ _ h => h
    | none =>
      refine leads_part_bind_any fun o' => Leads.bind (enterStage_counted _) fun _ => ?_
      split
      · exact leads_pure fun _ _ h => h
      · exact leads_pure fun _ _ h => h

/-- The steps of a call on complete assignments count no restart. -/
theorem steps_restarts (hS : Strategy.Selects S I Ψ)
    (hcomplete : ∀ s, I s → Model.unassignedCount s.model = 0) (hlost : ¬ KeptByUnassign I)
    (hopen : ∀ (model : M) p, Construction.Offers model p → Model.unassignedCount model ≠ 0)
    (hΨ : ∀ (model : M) p, Construction.Offers model p → Ψ model p) (exhausted fuel : Nat) :
    Leads (fun o s => Between I True o s ∧ Counted r o s)
      (steps exhausted fuel : Act (Orchestrator S α) M α (Option (Proposal V α)))
      (fun _ => Counted r) (Counted r) := by
  induction fuel generalizing exhausted with
  | zero => exact leads_throw fun _ _ h => h.2
  | succ fuel ih =>
    unfold steps
    have hstep := phaseStep_leads hS (.inr ⟨trivial, hcomplete⟩) (fun _ => hopen) hΨ exhausted
    -- no restart is due, since it would not keep what holds of the solution
    have hcount : Leads (fun o s => Between I True o s ∧ Counted r o s)
        (phaseStep exhausted : Act (Orchestrator S α) M α (Except Nat (Option (Proposal V α))))
        (fun _ => Counted r) (Counted r) :=
      (phaseStep_restarts exhausted).mono_pre fun _ _ h =>
        ⟨h.2, fun hphase => hlost (h.1.restarts hphase)⟩
    have hboth := (hstep.mono_pre fun o s (h : Between I True o s ∧ Counted r o s) => h.1).and
      hcount
    refine Leads.bind (hboth.mono_error fun _ _ h => h.2) fun answer => ?_
    cases answer with
    | ok p? => exact leads_pure fun _ _ h => h.2
    | error exhausted => exact ih exhausted

end Orchestrator

namespace AnyStrategy

variable {G M V α : Type} [Scalar α] [Model M V α] [MoveGenerator G M V α]
  {Φ : M → Candidate V α → Prop} {I : Solution M α → Prop} {r : Nat}

/-- A selection of a ready strategy on complete assignments counts no restart, even if it fails. -/
theorem select_restarts (hG : MoveGenerator.Proposes G Φ) (hrestore : KeptByRestore I)
    (hcomplete : ∀ s, I s → Model.unassignedCount s.model = 0) (hlost : ¬ KeptByUnassign I)
    (hopen : ∀ (model : M) p, Construction.Offers model p → Model.unassignedCount model ≠ 0) :
    Leads (fun t s => (t.Ready ∧ t.restarts = r) ∧ I s)
      (Strategy.select : Act (AnyStrategy G α) M α (Option (Proposal V α)))
      (fun _ t _ => t.restarts = r) (fun t _ => t.restarts = r) := by
  have hbasic := BasicStrategy.selects (I := I) hG hrestore
  show Leads _ AnyStrategy.select (fun _ t _ => t.restarts = r) (fun t _ => t.restarts = r)
  unfold AnyStrategy.select
  refine leads_part_bind fun t s ⟨⟨ht, hr⟩, hs⟩ => ?_
  cases t with
  | basic b =>
    exact leads_inside ((hbasic.leads.mono (fun _ _ h => h) (fun _ _ _ _ => hr)
      fun _ _ _ => hr).at hs)
  | orchestrator o =>
    refine leads_inside ?_
    show Leads (At o s) Orchestrator.select _ _
    unfold Orchestrator.select
    refine leads_part_bind_at ?_
    have hstart : Orchestrator.Between I True o s :=
      ⟨hs, fun _ => ht.1, fun h => absurd h ht.2⟩
    exact (Orchestrator.steps_restarts hbasic hcomplete hlost hopen (fun _ _ h => .inr h) 0
      o.stepLimit).at ⟨hstart, hr⟩

end AnyStrategy

end LocalSearch
