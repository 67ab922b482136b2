import LocalSearch.Proofs.Selection.Construction
import LocalSearch.Strategy.Orchestrator
/-!
# Selections of orchestration

A call may run through several phases. What construction proposed is dropped if the call then turns
to a restart, and a restart takes every variable its value.

* `Orchestrator.Orderly`: what an orchestrator from a configuration keeps up between two steps. The
  stages stand for acceptance phases, and construction does not go on after it has once left nothing
  unassigned.
* `Orchestrator.selects`: a call keeps any property that survives a restart.
* `Orchestrator.select_leads`: with an orderly orchestrator it also keeps a property of complete
  solutions, as there is no restart then.
-/

namespace LocalSearch

open Act

/-- A phase in which a stage of the rotation has its turn. -/
def Phase.IsAcceptance (p : Phase) : Prop :=
  p ≠ .construction ∧ p ≠ .restart

namespace Orchestrator

variable {S M V α : Type}

/-- Every stage stands for an acceptance phase. -/
def Rotates (o : Orchestrator S α) : Prop :=
  ∀ phase ∈ o.rotation, phase.IsAcceptance

/-- The stages stand for acceptance phases, and construction does not go on after it has once left
nothing unassigned. -/
structure Orderly (o : Orchestrator S α) : Prop where
  rotates : o.Rotates
  constructs : o.phase = .construction → o.lastUnassigned ≠ some 0

theorem Rotates.of_rotation {o o' : Orchestrator S α} (ho : o.Rotates)
    (h : o'.rotation = o.rotation) : o'.Rotates := by
  unfold Rotates
  rw [h]
  exact ho

/-- An orchestrator takes its stages as they are, in another order. -/
theorem mem_of_mem_stages {construction : Construction α} {stages : List (Stage S)}
    {restartLimit : Nat} {o : Orchestrator S α} {stage : Stage S}
    (h : Orchestrator.of construction stages restartLimit = .ok o) (hstage : stage ∈ o.stages) :
    stage ∈ stages := by
  unfold Orchestrator.of at h
  dsimp only at h
  split at h
  · cases h
  · split at h
    · cases h
    · cases h
      exact (List.mem_filter.1 (List.mem_mergeSort.1 hstage)).1

theorem rotates_of {construction : Construction α} {stages : List (Stage S)} {restartLimit : Nat}
    {o : Orchestrator S α} (hstages : ∀ s ∈ stages, s.phase.IsAcceptance)
    (h : Orchestrator.of construction stages restartLimit = .ok o) : o.Rotates := by
  intro phase hphase
  obtain ⟨stage, hstage, rfl⟩ := List.mem_map.1 hphase
  exact hstages stage (mem_of_mem_stages h hstage)

/-- A stage may change its strategy. -/
theorem rotation_set {o : Orchestrator S α} {index : Nat} {stage : Stage S}
    (h : fetch o.stages index = .ok stage) (strategy : S) :
    (o.stages.set index { stage with strategy }).map Stage.phase = o.rotation := by
  unfold rotation
  exact map_set_of_fetch h rfl

/-- Construction is not stuck as long as it leaves nothing unassigned for the first time. -/
theorem observe_zero {o : Orchestrator S α} (h : o.lastUnassigned ≠ some 0) :
    (o.observe 0).2 = false := by
  unfold observe
  cases hlast : o.lastUnassigned with
  | none => rfl
  | some last =>
    have hpos : last ≠ 0 := fun h0 => h (by rw [hlast, h0])
    simp [hpos]

theorem observe_lastUnassigned {o : Orchestrator S α} {n : Nat} (h : o.lastUnassigned ≠ some 0)
    (hn : n ≠ 0) : (o.observe n).1.lastUnassigned ≠ some 0 := by
  unfold observe
  cases hlast : o.lastUnassigned with
  | none => simpa using hn
  | some last =>
    dsimp only
    split
    · simpa [← hlast] using h
    · simpa using hn

theorem observe_rotation (o : Orchestrator S α) (n : Nat) :
    (o.observe n).1.rotation = o.rotation := by
  unfold observe rotation
  split
  · split <;> rfl
  · rfl

theorem observe_phase (o : Orchestrator S α) (n : Nat) : (o.observe n).1.phase = o.phase := by
  unfold observe
  split
  · split <;> rfl
  · rfl

/-! ## The operations of a step -/

section

variable [Model M V α] {I : Solution M α → Prop} {P Q : Orchestrator S α → Solution M α → Prop}

theorem switchTo_leads [Scalar α] {E : Orchestrator S α → Solution M α → Prop} {phase : Phase}
    (hQ : ∀ o s, P o s → Q { o with phase } s) (hE : ∀ o s, P o s → E o s) :
    Leads P (switchTo phase : Act (Orchestrator S α) M α Unit) (fun _ => Q) E := by
  unfold switchTo
  refine leads_get_bind fun o w hP => ?_
  refine Leads.at (P := P) ?_ hP
  refine leads_lift_bind hE fun fields _ => ?_
  refine Leads.bind (Q := fun _ => P) (leads_report fun _ _ h => h) fun _ => ?_
  exact leads_change hQ

/-- The phase of a stage is an acceptance phase, if that is known of all stages. -/
theorem enterStage_leads [Scalar α] (orderly : Prop) (index : Nat) :
    Leads (fun o s => I s ∧ (orderly → o.Rotates))
      (enterStage index : Act (Orchestrator S α) M α Unit)
      (fun _ o s => I s ∧ (orderly → o.Rotates ∧ o.phase.IsAcceptance)) (fun _ => I) := by
  unfold enterStage
  refine Leads.bind (Q := fun _ o s => I s ∧ (orderly → o.Rotates))
    (leads_change fun o s h => h) fun _ => ?_
  refine leads_part_bind fun o s ⟨hs, ho⟩ => ?_
  refine leads_lift_bind (fun _ _ h => h.2 ▸ hs) fun stage hstage => ?_
  refine switchTo_leads ?_ fun _ _ h => h.2 ▸ hs
  rintro _ _ ⟨rfl, rfl⟩
  have hmem : stage ∈ _ := List.mem_of_getElem? (fetch_eq_ok_iff.1 hstage)
  exact ⟨hs, fun horderly => ⟨ho horderly, ho horderly _ (List.mem_map_of_mem hmem)⟩⟩

/-- Taking every variable its value leaves the orchestrator alone. -/
theorem unassignAll_leads (hI : KeptByUnassign I) {K : Orchestrator S α → Prop} :
    Leads (fun o s => I s ∧ K o) (unassignAll : Act (Orchestrator S α) M α Unit)
      (fun _ o s => I s ∧ K o) (fun _ => I) := by
  unfold unassignAll
  refine leads_solution_bind fun o s hs => ?_
  refine Leads.at (P := fun o s => I s ∧ K o) (leads_onWorld fun o => ?_) hs
  refine Attempt.ensures_focus fun w hw => ?_
  -- the loop works on the model alone, so the property is said of the model in its solution
  let P (m : M) : Prop := I { w.solution with model := m } ∧ K o
  have hall : Attempt.Ensures P ((List.range (Model.variableCount s.model)).forM fun v =>
      Attempt.update (Model.unassign · v)) (fun _ => P) P :=
    Attempt.ensures_forM _ fun v _ => Attempt.ensures_update
      (fun m m' hm h => ⟨hI { w.solution with model := m } v m' hm.1 h, hm.2⟩) fun _ h => h
  exact hall.mono (fun m hm => by rw [hm]; exact hw) (fun _ _ h => h) fun _ h => h.1

variable [Scalar α] [Strategy S M V α] {Ψ : M → Proposal V α → Prop}

omit [Scalar α] in
/-- After a restart construction starts anew. -/
theorem restart_leads (hI : KeptByUnassign I) (phases : List Phase) :
    Leads (fun o s => I s ∧ o.rotation = phases)
      (restart M (V := V) : Act (Orchestrator S α) M α Unit)
      (fun _ o s => I s ∧ o.rotation = phases ∧ o.lastUnassigned = none) (fun _ => I) := by
  unfold restart
  refine Leads.bind (Q := fun _ o s => I s ∧ o.rotation = phases)
    (unassignAll_leads hI) fun _ => ?_
  refine Leads.bind (Q := fun _ o s => I s ∧ o.rotation = phases ∧ o.lastUnassigned = none)
    (leads_change fun o s hs => ⟨hs.1, ?_, rfl⟩) fun _ => ?_
  · rw [← hs.2]
    simp [rotation, Function.comp_def]
  refine leads_part_bind fun o s hs => ?_
  refine leads_solution_bind fun _ _ ⟨ho, hs'⟩ => ?_
  refine leads_report fun _ _ ⟨ho', hs''⟩ => ?_
  rw [ho', hs'', ho, hs']
  exact hs

omit [Model M V α] [Scalar α] in
/-- A stage that is asked may change its strategy and the solution. -/
theorem ask_leads (hS : Strategy.Selects S I Ψ) {K : Orchestrator S α → Prop}
    (hK : ∀ o index stage strategy, fetch o.stages index = .ok stage → K o →
      K { o with stages := o.stages.set index { stage with strategy } }) (index : Nat) :
    Leads (fun o s => I s ∧ K o) (ask index : Act (Orchestrator S α) M α (Option (Proposal V α)))
      (fun p? o s => (I s ∧ ∀ p, p? = some p → Ψ s.model p) ∧ K o) (fun o s => I s ∧ K o) := by
  unfold ask
  refine leads_part_bind fun o s ⟨hI, hK'⟩ => ?_
  refine leads_lift_bind (fun _ _ ⟨ho, hs⟩ => by rw [ho, hs]; exact ⟨hI, hK'⟩) fun stage hstage => ?_
  refine leads_within fun t s ht => ?_
  obtain ⟨rfl, rfl⟩ := ht
  refine Leads.at (P := fun _ => I) ?_ hI
  exact hS.leads.mono (fun _ _ h => h)
    (fun p? strategy s hs => ⟨hs, hK t index stage strategy hstage hK'⟩)
    fun strategy s hs => ⟨hs, hK t index stage strategy hstage hK'⟩

/-! ## A call -/

/-- What holds between two steps of a call, where `orderly` says whether the orchestrator is known
to be orderly. -/
structure Between (I : Solution M α → Prop) (orderly : Prop) (o : Orchestrator S α)
    (s : Solution M α) : Prop where
  holds : I s
  orderly : orderly → o.Orderly
  restarts : o.phase = .restart → KeptByUnassign I

/-- What holds after a step: the answer is a proposal for the solution that the step leaves, or the
call goes on. -/
def Stepped (I : Solution M α → Prop) (orderly : Prop) (Ψ : M → Proposal V α → Prop) :
    Except Nat (Option (Proposal V α)) → Orchestrator S α → Solution M α → Prop
  | .error _, o, s => Between I orderly o s
  | .ok p?, o, s =>
    (I s ∧ ∀ p, p? = some p → Ψ s.model p) ∧ (orderly → o.Orderly ∧ o.phase ≠ .restart)

variable {orderly : Prop}

omit [Scalar α] [Strategy S M V α] in
/-- In an acceptance phase no restart is due. -/
theorem between_of_isAcceptance {o : Orchestrator S α} {s : Solution M α}
    (hcase : KeptByUnassign I ∨ orderly ∧ ∀ s, I s → Model.unassignedCount s.model = 0) (hs : I s)
    (ho : orderly → o.Rotates ∧ o.phase.IsAcceptance) : Between I orderly o s := by
  refine ⟨hs, fun horderly => ⟨(ho horderly).1, fun h => absurd h (ho horderly).2.1⟩, fun h => ?_⟩
  rcases hcase with hunassign | ⟨horderly, -⟩
  · exact hunassign
  · exact absurd h (ho horderly).2.2

omit [Strategy S M V α] in
/-- After a construction call an orchestrator turns to a restart, hands over to the first stage, or
passes on what construction proposed. -/
theorem constructionStep_leads {proposal? : Option (Proposal V α)} {exhausted : Nat}
    {o : Orchestrator S α} {s : Solution M α}
    (hcase : KeptByUnassign I ∨ orderly ∧ ∀ s, I s → Model.unassignedCount s.model = 0)
    (hopen : orderly → ∀ (model : M) p, Construction.Offers model p →
      Model.unassignedCount model ≠ 0)
    (hΨ : ∀ (model : M) p, Construction.Offers model p → Ψ model p)
    (hs : I s) (hoffer : ∀ p, proposal? = some p → Construction.Offers s.model p)
    (ho : orderly → o.Orderly) (hphase : o.phase = .construction) :
    Leads (At (o.observe (Model.unassignedCount s.model)).1 s)
      (do
        if (o.observe (Model.unassignedCount s.model)).2 then
          switchTo .restart
          return .error exhausted
        else if proposal?.isSome then return .ok proposal?
        else
          enterStage 0
          return .error exhausted : Act (Orchestrator S α) M α _)
      (Stepped I orderly Ψ) (fun _ => I) := by
  have hrotates (horderly : orderly) :
      (o.observe (Model.unassignedCount s.model)).1.Rotates :=
    (ho horderly).rotates.of_rotation (observe_rotation o _)
  have hE : ∀ o' s', At (o.observe (Model.unassignedCount s.model)).1 s o' s' → I s' :=
    fun _ _ h => h.2 ▸ hs
  split
  · -- a restart is due, which is not so if nothing is unassigned
    rename_i hstuck
    refine Leads.bind (Q := fun _ => Between I orderly) (switchTo_leads ?_ hE) fun _ =>
      leads_pure fun _ _ h => h
    rintro _ _ ⟨rfl, rfl⟩
    refine ⟨hs, fun horderly => ⟨hrotates horderly, fun h => by cases h⟩, fun _ => ?_⟩
    rcases hcase with hunassign | ⟨horderly, hcomplete⟩
    · exact hunassign
    · rw [hcomplete _ hs, observe_zero ((ho horderly).constructs hphase)] at hstuck
      cases hstuck
  split
  · rename_i hsome
    -- an offer means that something is unassigned, so construction has not left zero behind
    obtain ⟨p, hp⟩ := Option.isSome_iff_exists.1 hsome
    refine leads_pure fun _ _ ⟨ht, ht'⟩ => ?_
    subst ht ht'
    refine ⟨⟨hs, fun p' hp' => hΨ _ _ (hoffer p' hp')⟩, fun horderly => ?_⟩
    have hn := hopen horderly _ p (hoffer p hp)
    refine ⟨⟨hrotates horderly, fun _ => ?_⟩, ?_⟩
    · exact observe_lastUnassigned ((ho horderly).constructs hphase) hn
    · rw [observe_phase, hphase]
      decide
  · refine Leads.bind ((enterStage_leads orderly 0).at ⟨hs, hrotates⟩) fun _ => ?_
    exact leads_pure fun _ _ h => between_of_isAcceptance hcase h.1 h.2

/-- One step of a call. -/
theorem phaseStep_leads (hS : Strategy.Selects S I Ψ)
    (hcase : KeptByUnassign I ∨ orderly ∧ ∀ s, I s → Model.unassignedCount s.model = 0)
    (hopen : orderly → ∀ (model : M) p, Construction.Offers model p →
      Model.unassignedCount model ≠ 0)
    (hΨ : ∀ (model : M) p, Construction.Offers model p → Ψ model p) (exhausted : Nat) :
    Leads (Between I orderly) (phaseStep exhausted : Act (Orchestrator S α) M α _)
      (Stepped I orderly Ψ) (fun _ => I) := by
  unfold phaseStep
  refine leads_part_bind fun o s hs => ?_
  split
  · rename_i hphase
    -- construction itself does not see the rest of the orchestrator
    let K (o : Orchestrator S α) : Prop := (orderly → o.Orderly) ∧ o.phase = .construction
    have hK (o : Orchestrator S α) (construction : Construction α) (h : K o) :
        K { o with construction } :=
      ⟨fun ho => ⟨(h.1 ho).rotates, (h.1 ho).constructs⟩, h.2⟩
    refine Leads.bind (((leads_within_of_ensures Construction.selects hK).mono_error
      fun _ _ h => h.1).at ⟨hs.holds, hs.orderly, hphase⟩) fun p? => ?_
    refine leads_get_bind fun o w ⟨⟨hI, hoffer⟩, ho, hphase⟩ => ?_
    refine Leads.bind
      (Q := fun _ => At (o.observe (Model.unassignedCount w.solution.model)).1 w.solution)
      (leads_set fun _ _ _ => ⟨rfl, rfl⟩) fun _ => ?_
    exact constructionStep_leads hcase hopen hΨ hI hoffer ho hphase
  · rename_i hphase
    refine Leads.bind (Leads.at (restart_leads (hs.restarts hphase) o.rotation) ⟨hs.holds, rfl⟩)
      fun _ => ?_
    refine Leads.bind (Q := fun _ => Between I orderly) (switchTo_leads ?_ fun _ _ h => h.1)
      fun _ => leads_pure fun _ _ h => h
    -- construction starts as if nothing had been observed
    intro o' s' ⟨hs', hrotation, hlast⟩
    refine ⟨hs', fun horderly => ⟨?_, fun _ => by rw [hlast]; simp⟩, fun h => by cases h⟩
    exact (hs.orderly horderly).rotates.of_rotation hrotation
  · rename_i hconstruction hrestart
    -- a stage has its turn; whatever it answers, no restart can follow from here
    let K (o : Orchestrator S α) : Prop := (orderly → o.Rotates) ∧ o.phase.IsAcceptance
    have hK (o : Orchestrator S α) (index : Nat) (stage : Stage S) (strategy : S)
        (hstage : fetch o.stages index = .ok stage) (h : K o) :
        K { o with stages := o.stages.set index { stage with strategy } } :=
      ⟨fun horderly => (h.1 horderly).of_rotation (rotation_set hstage strategy), h.2⟩
    refine leads_part_bind fun o' s' h => ?_
    obtain ⟨rfl, rfl⟩ := h
    refine Leads.bind (((ask_leads hS hK o'.current).mono_error fun _ _ h => h.1).at
      ⟨hs.holds, fun ho => (hs.orderly ho).rotates, hconstruction, hrestart⟩) fun p? => ?_
    cases p? with
    | some p =>
      refine leads_pure fun o s ⟨h, hrotates, haccept⟩ => ⟨h, fun horderly => ⟨?_, haccept.2⟩⟩
      exact ⟨hrotates horderly, fun h => absurd h haccept.1⟩
    | none =>
      refine leads_part_bind fun o s ⟨h, hrotates, _⟩ => ?_
      refine Leads.bind ((enterStage_leads orderly _).at ⟨h.1, hrotates⟩) fun _ => ?_
      split
      · refine leads_pure fun o s ⟨hs, ho⟩ => ⟨⟨hs, fun _ h => by cases h⟩, fun horderly => ?_⟩
        obtain ⟨hrotates, haccept⟩ := ho horderly
        exact ⟨⟨hrotates, fun h => absurd h haccept.1⟩, haccept.2⟩
      · exact leads_pure fun _ _ h => between_of_isAcceptance hcase h.1 h.2

/-- The steps of a call. -/
theorem steps_leads (hS : Strategy.Selects S I Ψ)
    (hcase : KeptByUnassign I ∨ orderly ∧ ∀ s, I s → Model.unassignedCount s.model = 0)
    (hopen : orderly → ∀ (model : M) p, Construction.Offers model p →
      Model.unassignedCount model ≠ 0)
    (hΨ : ∀ (model : M) p, Construction.Offers model p → Ψ model p) (exhausted fuel : Nat) :
    Leads (Between I orderly) (steps exhausted fuel : Act (Orchestrator S α) M α _)
      (fun p? => Stepped I orderly Ψ (.ok p?)) (fun _ => I) := by
  -- by induction on the steps left; what holds between two steps carries it
  induction fuel generalizing exhausted with
  | zero => exact leads_throw fun _ _ hs => hs.holds
  | succ fuel ih =>
    unfold steps
    refine Leads.bind (phaseStep_leads hS hcase hopen hΨ exhausted) fun r => ?_
    cases r with
    | ok p? => exact leads_pure fun _ _ h => h
    | error exhausted => exact ih exhausted

/-- A call keeps what survives a restart. -/
theorem selects (hS : Strategy.Selects S I Ψ) (hunassign : KeptByUnassign I)
    (hΨ : ∀ (model : M) p, Construction.Offers model p → Ψ model p) :
    Strategy.Selects (Orchestrator S α) I Ψ := by
  show Leads (fun _ => I) (select : Act (Orchestrator S α) M α (Option (Proposal V α)))
    (fun p? _ s => I s ∧ ∀ p, p? = some p → Ψ s.model p) (fun _ => I)
  unfold select
  refine leads_part_bind fun o s hs => ?_
  -- nothing is known of the order here, so a restart may come at any time
  have hstart : Between I False o s := ⟨hs, fun h => h.elim, fun _ => hunassign⟩
  exact ((steps_leads hS (.inl hunassign) (fun h => h.elim) hΨ 0 o.stepLimit).mono_post
    fun _ _ _ h => h.1).at hstart

/-- An orderly orchestrator stays so in a call, which keeps what survives a restart or is said of
complete solutions only. -/
theorem select_leads (hS : Strategy.Selects S I Ψ)
    (hcase : KeptByUnassign I ∨ ∀ s, I s → Model.unassignedCount s.model = 0)
    (hopen : ∀ (model : M) p, Construction.Offers model p → Model.unassignedCount model ≠ 0)
    (hΨ : ∀ (model : M) p, Construction.Offers model p → Ψ model p) :
    Leads (fun o s => (o.Orderly ∧ o.phase ≠ .restart) ∧ I s)
      (select : Act (Orchestrator S α) M α (Option (Proposal V α)))
      (fun p? o s => (o.Orderly ∧ o.phase ≠ .restart) ∧ I s ∧ ∀ p, p? = some p → Ψ s.model p)
      (fun _ => I) := by
  unfold select
  refine leads_part_bind fun o s ⟨⟨horderly, hphase⟩, hs⟩ => ?_
  -- an orderly orchestrator has no restart pending when it is called
  have hstart : Between I True o s := ⟨hs, fun _ => horderly, fun h => absurd h hphase⟩
  have hcase := hcase.imp_right fun h => And.intro trivial h
  exact ((steps_leads hS hcase (fun _ => hopen) hΨ 0 o.stepLimit).mono_post
    fun _ _ _ h => ⟨h.2 trivial, h.1⟩).at hstart

end

end Orchestrator

end LocalSearch
