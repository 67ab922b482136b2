import LocalSearch.Proofs.Selection.Group
import LocalSearch.Proofs.Selection.Orchestrator
import LocalSearch.Strategy.Kinds
/-!
# Selections of all strategies

What the selections of the single strategies have in common, for the types that hold any of them.

* `AnyStrategy.selects`: every strategy supplies its proposals for the solution that the selection
  leaves.
* `AnyStrategy.quiet_init`: preparing for a search leaves the solution alone.
* `AnyStrategy.Ready`: what a strategy from a configuration keeps up between two calls, and
  `AnyStrategy.select_leads`: what it selects then.
-/

namespace LocalSearch

open Act

variable {G M V α : Type} [Scalar α] [Model M V α] [MoveGenerator G M V α]
  {Φ : M → Candidate V α → Prop} {I : Solution M α → Prop}

omit [Scalar α] [MoveGenerator G M V α] [Model M V α] in
/-- What holds of a selection by weaker proposals. -/
theorem Strategy.Selects.mono {S : Type} [Strategy S M V α] {Ψ Ψ' : M → Proposal V α → Prop}
    (h : Strategy.Selects S I Ψ) (hΨ : ∀ model p, Ψ model p → Ψ' model p) :
    Strategy.Selects S I Ψ' :=
  Ensures.mono_post h fun _ s hs => ⟨hs.1, fun p hp => hΨ s.model p (hs.2 p hp)⟩

omit [Scalar α] [MoveGenerator G M V α] [Model M V α] in
/-- What a variant holds decides what an operation on it does. -/
theorem Act.leads_inside {S T β : Type} {held : T} {wrap : T → S} {y : Act T M α β}
    {Q : β → S → Solution M α → Prop} {E : S → Solution M α → Prop} {t : S} {s : Solution M α}
    (h : Leads (At held s) y (fun b u s => Q b (wrap u) s) (fun u s => E (wrap u) s)) :
    Leads (At t s) (Act.inside held wrap y) Q E :=
  leads_within fun _ _ ⟨_, hs⟩ => hs ▸ h

namespace BasicStrategy

theorem selects (hG : MoveGenerator.Proposes G Φ) (hrestore : KeptByRestore I) :
    Strategy.Selects (BasicStrategy G α) I (Proposal.Supplied Φ) := by
  have hfrom {S : Type} [Strategy S M V α] (h : Strategy.Selects S I (Proposal.From Φ)) :
      Strategy.Selects S I (Proposal.Supplied Φ) := h.mono fun _ _ h => .inl h
  show Ensures I select _ I
  unfold select
  refine ensures_quiet_bind (by simp) (fun _ h => h) fun s => ?_
  cases s with
  | hillClimbing s => exact ensures_within (hfrom (HillClimbing.selects hG))
  | greatDeluge s => exact ensures_within (hfrom (GreatDeluge.selects hG))
  | simulatedAnnealing s => exact ensures_within (hfrom (SimulatedAnnealing.selects hG hrestore))
  | group s => exact ensures_within (Group.selects hG hrestore)
  | construction s => exact ensures_within (Construction.selects.mono fun _ _ h => .inr h)

end BasicStrategy

namespace AnyStrategy

/-- Every strategy supplies its proposals for the solution that the selection leaves. -/
theorem selects (hG : MoveGenerator.Proposes G Φ) (hrestore : KeptByRestore I)
    (hunassign : KeptByUnassign I) :
    Strategy.Selects (AnyStrategy G α) I (Proposal.Supplied Φ) := by
  have hbasic := BasicStrategy.selects (I := I) hG hrestore
  show Ensures I select _ I
  unfold select
  refine ensures_quiet_bind (by simp) (fun _ h => h) fun s => ?_
  cases s with
  | basic s => exact ensures_within hbasic
  | orchestrator s =>
    exact ensures_within (Orchestrator.selects hbasic hunassign fun _ _ h => .inr h)

end AnyStrategy

/-! ## Preparing for a search -/

omit [Model M V α] in
@[simp]
theorem HillClimbing.quiet_init :
    Quiet (HillClimbing.init : Act (HillClimbing G α) M α Unit) := by
  unfold HillClimbing.init
  refine Attempt.fixes_bind (by simp) fun s => ?_
  exact Attempt.fixes_bind (by simp [HillClimbing.onHeuristic]) fun _ => by simp

omit [Model M V α] in
@[simp]
theorem GreatDeluge.quiet_init : Quiet (GreatDeluge.init : Act (GreatDeluge G α) M α Unit) := by
  unfold GreatDeluge.init
  refine Attempt.fixes_bind (by simp) fun s => ?_
  exact Attempt.fixes_bind (by simp [GreatDeluge.onHeuristic]) fun _ => by simp

@[simp]
theorem AnnealingSchedule.quiet_start (domainSize : Nat) :
    Quiet (AnnealingSchedule.start domainSize : Act (AnnealingSchedule α) M α Unit) := by
  simp [AnnealingSchedule.start]

@[simp]
theorem SimulatedAnnealing.quiet_init :
    Quiet (SimulatedAnnealing.init : Act (SimulatedAnnealing G α) M α Unit) := by
  unfold SimulatedAnnealing.init
  refine Attempt.fixes_bind (by simp) fun s => ?_
  refine Attempt.fixes_bind (by simp [SimulatedAnnealing.onHeuristic]) fun _ => ?_
  refine Attempt.fixes_bind (by simp) fun size => ?_
  exact Attempt.fixes_bind (by simp [SimulatedAnnealing.onSchedule]) fun _ => by simp

@[simp]
theorem Construction.quiet_init :
    Quiet (Strategy.init : Act (Construction α) M α Unit) :=
  quiet_change _

@[simp]
theorem Group.quiet_init : Quiet (Group.init : Act (Group G α) M α Unit) := by
  unfold Group.init
  refine Attempt.fixes_bind (by simp [Group.onConstruction]) fun _ => ?_
  refine Attempt.fixes_bind (by simp) fun s => ?_
  refine Attempt.fixes_bind (by simp [Group.onHeuristic]) fun _ => ?_
  refine Attempt.fixes_bind (by simp) fun _ => ?_
  refine Attempt.fixes_bind (by simp) fun g => ?_
  split
  · exact Attempt.fixes_bind (by simp) fun size => by simp [Group.onAnnealing]
  · simp

namespace BasicStrategy

@[simp]
theorem quiet_init : Quiet (Strategy.init : Act (BasicStrategy G α) M α Unit) := by
  show Quiet BasicStrategy.init
  unfold BasicStrategy.init
  refine Attempt.fixes_bind (by simp) fun s => ?_
  cases s with
  | hillClimbing s => exact quiet_within HillClimbing.quiet_init
  | greatDeluge s => exact quiet_within GreatDeluge.quiet_init
  | simulatedAnnealing s => exact quiet_within SimulatedAnnealing.quiet_init
  | group s => exact quiet_within Group.quiet_init
  | construction s => exact quiet_within Construction.quiet_init

end BasicStrategy

/-- An orchestrator at the start of a search. -/
structure Orchestrator.Fresh {S : Type} (o : Orchestrator S α) : Prop where
  phase_eq : o.phase = .construction
  lastUnassigned_eq : o.lastUnassigned = none
  restarts_eq : o.restarts = 0
  tabu_eq : o.construction.tabu = []

omit [MoveGenerator G M V α] in
/-- Preparing keeps what the stages keep and leaves their phases and the settings of construction
alone. It fails only as a stage does. -/
theorem Orchestrator.init_leads {S : Type} [Strategy S M V α] {E : Solution M α → Prop}
    (hS : Ensures I (Strategy.init : Act S M α Unit) (fun _ => I) E) (phases : List Phase)
    (config : ConstructionConfig α) :
    Leads (fun o s => I s ∧ o.rotation = phases ∧ o.construction.config = config)
      (Orchestrator.init : Act (Orchestrator S α) M α Unit)
      (fun _ o s => (I s ∧ o.rotation = phases ∧ o.construction.config = config) ∧ o.Fresh)
      (fun _ => E) := by
  -- each stage is prepared in its place, which leaves its phase
  have hstage (index : Nat) (hlt : index < phases.length) :
      Leads (fun o s => I s ∧ o.rotation = phases ∧ o.construction = .of config)
        (initStage index : Act (Orchestrator S α) M α Unit)
        (fun _ o s => I s ∧ o.rotation = phases ∧ o.construction = .of config) (fun _ => E) := by
    unfold initStage
    refine leads_part_bind fun o s h => ?_
    obtain ⟨hs, hrotation, hconstruction⟩ := h
    have hlength : index < o.stages.length := by
      rw [← hrotation] at hlt
      simpa [rotation] using hlt
    have hfetch := fetch_eq_ok_iff.2 (List.getElem?_eq_getElem hlength)
    refine leads_lift_bind_of_ok hfetch (leads_within fun o' s' h => ?_)
    obtain ⟨rfl, rfl⟩ := h
    exact (hS.leads.mono_post fun _ strategy _ h =>
      ⟨h, (rotation_set hfetch strategy).trans hrotation, hconstruction⟩).at hs
  unfold Orchestrator.init
  refine Leads.bind
    (Q := fun _ o s => I s ∧ o.rotation = phases ∧ o.construction = .of config) ?_ fun _ => ?_
  · refine leads_within fun o s h => leads_change ?_
    obtain ⟨hs, hrotation, hconfig⟩ := h
    rintro _ _ ⟨rfl, rfl⟩
    exact ⟨hs, hrotation, congrArg Construction.of hconfig⟩
  refine leads_part_bind fun o s hs => ?_
  have hlength : o.stages.length = phases.length := by
    rw [← hs.2.1]
    simp [rotation]
  refine Leads.bind (Leads.at (leads_forM _ fun index hindex =>
    hstage index (hlength ▸ List.mem_range.1 hindex)) hs) fun _ => ?_
  refine leads_change fun o s h => ?_
  obtain ⟨hs, hrotation, hconstruction⟩ := h
  refine ⟨⟨hs, hrotation, ?_⟩, rfl, rfl, rfl, ?_⟩
  · exact congrArg Construction.config hconstruction
  · exact congrArg Construction.tabu hconstruction

namespace AnyStrategy

@[simp]
theorem quiet_init : Quiet (Strategy.init : Act (AnyStrategy G α) M α Unit) := by
  refine quiet_of_ensures fun solution => ?_
  show Leads (fun _ => (· = solution)) AnyStrategy.init (fun _ _ => (· = solution))
    (fun _ => (· = solution))
  unfold AnyStrategy.init
  refine leads_part_bind fun t s hs => ?_
  cases t with
  | basic b => exact leads_inside (Leads.at (ensures_quiet (by simp) fun _ h => h).leads hs)
  | orchestrator o =>
    have hinit := Orchestrator.init_leads (I := (· = solution)) (E := (· = solution))
      (BasicStrategy.quiet_init (G := G) solution) o.rotation o.construction.config
    exact leads_inside ((hinit.mono_post fun _ _ _ h => h.1.1).at ⟨hs, rfl, rfl⟩)

/-! ## Strategies from a configuration -/

omit [Scalar α] [Model M V α] [MoveGenerator G M V α] in
/-- The stages of an orchestrator stand for acceptance phases. -/
def Rotates : AnyStrategy G α → Prop
  | basic _ => True
  | orchestrator o => o.Rotates

/-- A strategy between two calls: an orchestrator is orderly, and no restart is due. -/
def Ready : AnyStrategy G α → Prop
  | basic _ => True
  | orchestrator o => o.Orderly ∧ o.phase ≠ .restart

/-- Preparing makes a strategy ready. -/
theorem init_leads :
    Leads (fun t s => t.Rotates ∧ I s) (Strategy.init : Act (AnyStrategy G α) M α Unit)
      (fun _ t s => t.Ready ∧ I s) (fun _ => I) := by
  show Leads _ AnyStrategy.init (fun _ t s => t.Ready ∧ I s) (fun _ => I)
  unfold AnyStrategy.init
  refine leads_part_bind fun t s ⟨ht, hs⟩ => ?_
  cases t with
  | basic b =>
    have hinit := ensures_quiet (P := I) (BasicStrategy.quiet_init (G := G)) fun _ h => h
    exact leads_inside ((hinit.leads.mono_post fun _ _ _ h => ⟨trivial, h⟩).at hs)
  | orchestrator o =>
    have hinit := Orchestrator.init_leads (I := I) (E := I)
      (ensures_quiet (BasicStrategy.quiet_init (G := G)) fun _ h => h) o.rotation
      o.construction.config
    refine leads_inside ((hinit.mono_post fun _ o' _ h => ⟨⟨⟨?_, ?_⟩, ?_⟩, h.1.1⟩).at ⟨hs, rfl, rfl⟩)
    · exact Orchestrator.Rotates.of_rotation ht h.1.2.1
    · intro _
      rw [h.2.lastUnassigned_eq]
      simp
    · rw [h.2.phase_eq]
      decide

/-- A ready strategy stays so in a call, which keeps what survives a restart or is said of complete
solutions only. -/
theorem select_leads (hG : MoveGenerator.Proposes G Φ) (hrestore : KeptByRestore I)
    (hcase : KeptByUnassign I ∨ ∀ s, I s → Model.unassignedCount s.model = 0)
    (hopen : ∀ (model : M) p, Construction.Offers model p → Model.unassignedCount model ≠ 0) :
    Leads (fun t s => t.Ready ∧ I s)
      (Strategy.select : Act (AnyStrategy G α) M α (Option (Proposal V α)))
      (fun p? t s => t.Ready ∧ I s ∧ ∀ p, p? = some p → p.Supplied Φ s.model) (fun _ => I) := by
  have hbasic := BasicStrategy.selects (I := I) hG hrestore
  show Leads _ AnyStrategy.select
    (fun p? t s => t.Ready ∧ I s ∧ ∀ p, p? = some p → p.Supplied Φ s.model) (fun _ => I)
  unfold AnyStrategy.select
  refine leads_part_bind fun t s ⟨ht, hs⟩ => ?_
  cases t with
  | basic b =>
    exact leads_inside ((hbasic.leads.mono_post fun _ _ _ h => ⟨trivial, h⟩).at hs)
  | orchestrator o =>
    exact leads_inside ((Orchestrator.select_leads hbasic hcase hopen fun _ _ h => .inr h).at
      ⟨ht, hs⟩)

/-- A strategy stays ready when it is told of a new best state. -/
theorem ready_bestSaved {t : AnyStrategy G α} (ht : t.Ready) : (Strategy.bestSaved M t).Ready := by
  cases t with
  | basic b => trivial
  | orchestrator o =>
    refine ⟨⟨Orchestrator.Rotates.of_rotation ht.1.rotates ?_, ht.1.constructs⟩, ht.2⟩
    simp [Strategy.bestSaved, Orchestrator.rotation, Function.comp_def]

end AnyStrategy

end LocalSearch
