import LocalSearch.Proofs.Selection.Kinds
import LocalSearch.Registry
/-!
# Preparing for a search

The generators of this library have nothing to prepare that could fail, and of the strategies only
annealing asks something of the model, the sizes of its domains.

* `MoveGenerator.Prepares`: generators that never fail to prepare; `Generator.prepares`.
* `BasicStrategy.init_ensures`: preparing a strategy does not fail.
* `AnyStrategy.Begins`: strategies that begin a search with construction.
  `AnyStrategy.init_fresh`: what preparing makes of them.
-/

namespace LocalSearch

open Act

variable {G M V α : Type}

/-! ## Generators -/

/-- Generators that never fail to prepare for a search. -/
def MoveGenerator.Prepares (G M : Type) {V α : outParam Type} [MoveGenerator G M V α] : Prop :=
  ∀ model : M, Attempt.Total (MoveGenerator.init model : Attempt G Unit)

section

variable [MoveGenerator G M V α] {model : M}

theorem Selector.total_init (hG : MoveGenerator.Prepares G M) :
    Attempt.Total (Selector.init model : Attempt (Selector G α) Unit) :=
  Attempt.total_bind (Attempt.total_modify _) fun _ => Attempt.total_focus (hG model)

theorem Sequence.total_init [Scalar α] (hG : MoveGenerator.Prepares G M) :
    Attempt.Total (Sequence.init model : Attempt (Sequence G α) Unit) :=
  Attempt.total_bind (Attempt.total_focus (Attempt.total_each (Selector.total_init hG)))
    fun _ => Attempt.total_modify _

theorem Heuristic.total_init [Scalar α] (hG : MoveGenerator.Prepares G M) :
    Attempt.Total (Heuristic.init model : Attempt (Heuristic G α) Unit) :=
  Attempt.total_bind (Attempt.total_focus (Sequence.total_init hG)) fun _ => Attempt.total_modify _

end

variable [Scalar α] [Model M V α]

/-- Generators prepare without failing if those of another type do. -/
theorem BasicGenerator.prepares {X : Type} [MoveGenerator X M V α]
    (hX : MoveGenerator.Prepares X M) : MoveGenerator.Prepares (BasicGenerator X) M := by
  intro model
  show Attempt.Total (BasicGenerator.init model)
  unfold BasicGenerator.init
  refine Attempt.total_bind Attempt.total_get fun g => ?_
  cases g with
  | change _ | swap _ | lazyChange => exact Attempt.total_pure _
  | custom x => exact Attempt.total_focus (hX model)

theorem Generator.prepares {X : Type} [MoveGenerator X M V α] (hX : MoveGenerator.Prepares X M) :
    MoveGenerator.Prepares (Generator X α) M := by
  have hbasic := BasicGenerator.prepares (M := M) (V := V) hX
  intro model
  refine Attempt.total_bind Attempt.total_get fun g => ?_
  cases g with
  | basic g => exact Attempt.total_focus (hbasic model)
  | pool p =>
    exact Attempt.total_focus (Attempt.total_focus (Attempt.total_each (Selector.total_init hbasic)))

/-! ## Strategies -/

variable [MoveGenerator G M V α] {I E : Solution M α → Prop}

omit [Model M V α] in
theorem HillClimbing.total_init (hG : MoveGenerator.Prepares G M) :
    Attempt.Total (HillClimbing.init : Act (HillClimbing G α) M α Unit) := by
  refine Attempt.total_bind (by simp) fun s => ?_
  exact Attempt.total_bind
    (Attempt.total_focus (Attempt.total_focus (Heuristic.total_init hG))) fun _ => by simp

omit [Model M V α] in
theorem GreatDeluge.total_init (hG : MoveGenerator.Prepares G M) :
    Attempt.Total (GreatDeluge.init : Act (GreatDeluge G α) M α Unit) := by
  refine Attempt.total_bind (by simp) fun s => ?_
  exact Attempt.total_bind
    (Attempt.total_focus (Attempt.total_focus (Heuristic.total_init hG))) fun _ => by simp

omit [Model M V α] [MoveGenerator G M V α] in
theorem AnnealingSchedule.total_start (domainSize : Nat) :
    Attempt.Total (AnnealingSchedule.start domainSize : Act (AnnealingSchedule α) M α Unit) := by
  simp [AnnealingSchedule.start]

/-- Annealing has to know the sizes of the domains. -/
theorem SimulatedAnnealing.init_ensures (hG : MoveGenerator.Prepares G M)
    (hsize : ∀ s, I s → ∃ n, Model.totalDomainSize s.model = .ok n) :
    Ensures I (SimulatedAnnealing.init : Act (SimulatedAnnealing G α) M α Unit) (fun _ => I) E := by
  unfold SimulatedAnnealing.init
  refine ensures_solution_bind fun s hs => ?_
  obtain ⟨n, hn⟩ := hsize s hs
  refine Ensures.mono_post (Q := fun _ => (· = s)) ?_ fun _ _ h => h ▸ hs
  refine ensures_total_bind (by simp [SimulatedAnnealing.onHeuristic]) ?_ fun _ => ?_
  · exact Attempt.total_focus (Attempt.total_focus (Attempt.total_focus (Sequence.total_init hG)))
  have hstart : Ensures (· = s)
      (SimulatedAnnealing.onSchedule (AnnealingSchedule.start n) : Act (SimulatedAnnealing G α) M α Unit)
      (fun _ => (· = s)) E :=
    ensures_within (ensures_total (AnnealingSchedule.quiet_start n) (AnnealingSchedule.total_start n))
  refine ensures_lift_bind_of_ok hn (hstart.bind fun _ => ?_)
  exact ensures_total (quiet_change _) (total_change _)

/-- Group acceptance as well, if a temperature takes part. It begins with construction. -/
theorem Group.init_leads (hG : MoveGenerator.Prepares G M)
    (hsize : ∀ s, I s → ∃ n, Model.totalDomainSize s.model = .ok n)
    (config : ConstructionConfig α) :
    Leads (fun g s => I s ∧ g.construction.config = config)
      (Group.init : Act (Group G α) M α Unit)
      (fun _ g s => I s ∧ g.construction = .of config ∧ g.constructed = false) (fun _ => E) := by
  unfold Group.init
  refine Leads.bind (Q := fun _ g s => I s ∧ g.construction = .of config) ?_ fun _ => ?_
  · refine leads_within fun g s ⟨hs, hconfig⟩ => leads_change ?_
    rintro _ _ ⟨rfl, rfl⟩
    exact ⟨hs, congrArg Construction.of hconfig⟩
  refine leads_solution_bind fun g s ⟨hs, hconstruction⟩ => ?_
  obtain ⟨n, hn⟩ := hsize s hs
  refine Leads.at (P := fun g s' => s' = s ∧ g.construction = .of config) ?_ ⟨rfl, hconstruction⟩
  have hheuristic : Ensures (· = s)
      (Act.onPart (Heuristic.init s.model) : Act (Heuristic G α) M α Unit) (fun _ => (· = s))
      fun _ => False :=
    ensures_total (quiet_onPart _) (Attempt.total_focus (Heuristic.total_init hG))
  refine Leads.bind (Q := fun _ g s' => s' = s ∧ g.construction = .of config) ?_ fun _ => ?_
  · exact leads_within fun _ _ h => (hheuristic.leads.mono (fun _ _ h => h)
      (fun _ _ _ hs' => ⟨hs', h.2⟩) fun _ _ h => h.elim).at h.1
  refine Leads.bind (Q := fun _ g s' => s' = s ∧ g.construction = .of config ∧ g.constructed = false)
    (leads_change fun g s' h => ⟨h.1, h.2, rfl⟩) fun _ => ?_
  refine leads_part_bind_any fun g => ?_
  cases g.annealing with
  | none => exact leads_pure fun _ _ h => ⟨h.1 ▸ hs, h.2⟩
  | some schedule =>
    refine leads_lift_bind_of_ok hn ?_
    have hstart : Ensures (· = s) (AnnealingSchedule.start n : Act (AnnealingSchedule α) M α Unit)
        (fun _ => (· = s)) fun _ => False :=
      ensures_total (AnnealingSchedule.quiet_start n) (AnnealingSchedule.total_start n)
    exact leads_within fun _ _ h => (hstart.leads.mono (fun _ _ h => h)
      (fun _ _ _ hs' => ⟨hs' ▸ hs, h.2⟩) fun _ _ h => h.elim).at h.1

/-- Preparing a strategy does not fail. -/
theorem BasicStrategy.init_ensures (hG : MoveGenerator.Prepares G M)
    (hsize : ∀ s, I s → ∃ n, Model.totalDomainSize s.model = .ok n) :
    Ensures I (Strategy.init : Act (BasicStrategy G α) M α Unit) (fun _ => I) E := by
  show Ensures I BasicStrategy.init _ _
  unfold BasicStrategy.init
  refine ensures_total_bind (by simp) (by simp) fun b => ?_
  cases b with
  | hillClimbing b =>
    exact ensures_within (ensures_total HillClimbing.quiet_init (HillClimbing.total_init hG))
  | greatDeluge b =>
    exact ensures_within (ensures_total GreatDeluge.quiet_init (GreatDeluge.total_init hG))
  | simulatedAnnealing b => exact ensures_within (SimulatedAnnealing.init_ensures hG hsize)
  | group b =>
    have hinit := Group.init_leads (E := E) hG hsize b.construction.config
    exact leads_of_at (P := fun _ => I) fun _ _ hs =>
      leads_inside (Q := fun _ _ => I) (E := fun _ => E)
        ((hinit.mono_post fun _ _ _ h => h.1).at ⟨hs, rfl⟩)
  | construction b => exact ensures_within (ensures_total (quiet_change _) (total_change _))

/-! ## Strategies that begin with construction -/

namespace AnyStrategy

omit [MoveGenerator G M V α] [Model M V α] in
/-- The strategy begins with construction, which has these settings; an orchestrator does not come
back to it. -/
def Begins (config : ConstructionConfig α) : AnyStrategy G α → Prop
  | basic (.group g) => g.construction.config = config
  | orchestrator o => o.Rotates ∧ o.construction.config = config
  | basic _ => False

/-- The strategy is at the start of a search and begins with construction. -/
def Fresh (config : ConstructionConfig α) : AnyStrategy G α → Prop
  | basic (.group g) => g.construction = .of config ∧ g.constructed = false
  | orchestrator o => o.Rotates ∧ o.construction.config = config ∧ o.Fresh
  | basic _ => False

/-- Preparing does not fail, and makes a strategy ready to begin with construction. -/
theorem init_fresh (hG : MoveGenerator.Prepares G M)
    (hsize : ∀ s, I s → ∃ n, Model.totalDomainSize s.model = .ok n)
    (config : ConstructionConfig α) :
    Leads (fun t s => I s ∧ t.Begins config) (Strategy.init : Act (AnyStrategy G α) M α Unit)
      (fun _ t s => I s ∧ t.Fresh config) (fun _ => E) := by
  show Leads _ AnyStrategy.init (fun _ t s => I s ∧ t.Fresh config) (fun _ => E)
  unfold AnyStrategy.init
  refine leads_part_bind fun t s ⟨hs, ht⟩ => ?_
  cases t with
  | basic b =>
    cases b with
    | group g =>
      refine leads_inside ?_
      show Leads (At _ s) BasicStrategy.init _ _
      unfold BasicStrategy.init
      refine leads_part_bind_at (leads_inside ?_)
      exact (Group.init_leads hG hsize config).at ⟨hs, ht⟩
    | hillClimbing _ | greatDeluge _ | simulatedAnnealing _ | construction _ => exact ht.elim
  | orchestrator o =>
    have hinit := Orchestrator.init_leads (I := I) (E := E) (BasicStrategy.init_ensures hG hsize)
      o.rotation config
    refine leads_inside ((hinit.mono_post fun _ o' _ h => ⟨h.1.1, ?_, h.1.2.2, h.2⟩).at
      ⟨hs, rfl, ht.2⟩)
    exact ht.1.of_rotation h.1.2.1

end AnyStrategy

end LocalSearch
