import LocalSearch.Proofs.Selection.Orchestrator
import Mathlib.Data.List.Sort
/-!
# Steps of orchestration

What one step of a call can do in each phase, whether or not it fails, and what the operations
between two calls do. Most of them say of the stages no more than that their ranks and phases stay.

* `Orchestrator.plan`: the ranks and phases of the stages in order.
* `Orchestrator.new_of`: a new orchestrator, with its stages in the strict order of their ranks.
* `Orchestrator.Restaged`: the strategies of the stages may be others.
* `Orchestrator.constructionStep_spec`, `Orchestrator.restartStep_spec`, `Orchestrator.turn_spec`: a
  step of construction, a restart, and the turn of a stage.
* `Orchestrator.init_restaged`: preparing for a search.
-/

namespace LocalSearch

open Act

/-- The rank of a stage and the phase it stands for. -/
def Stage.slot {S : Type} (s : Stage S) : Int × Phase :=
  (s.rank, s.phase)

namespace Orchestrator

variable {S M V α : Type}

/-- The ranks and phases of the stages in order. -/
def plan (o : Orchestrator S α) : List (Int × Phase) :=
  o.stages.map Stage.slot

theorem rotation_eq (o : Orchestrator S α) : o.rotation = o.plan.map Prod.snd := by
  simp [rotation, plan, Stage.slot, Function.comp_def]

theorem length_plan (o : Orchestrator S α) : o.plan.length = o.stages.length := by
  simp [plan]

/-- The second orchestrator is the first one, except that its stages may have other strategies. -/
def Restaged (o o' : Orchestrator S α) : Prop :=
  ∃ stages : List (Stage S), stages.map Stage.slot = o.plan ∧ o' = { o with stages }

variable {o o' o'' : Orchestrator S α}

theorem Restaged.refl (o : Orchestrator S α) : o.Restaged o :=
  ⟨o.stages, rfl, rfl⟩

theorem Restaged.plan_eq (h : o.Restaged o') : o'.plan = o.plan := by
  obtain ⟨stages, hstages, rfl⟩ := h
  exact hstages

theorem Restaged.trans (h : o.Restaged o') (h' : o'.Restaged o'') : o.Restaged o'' := by
  obtain ⟨stages, hstages, rfl⟩ := h'
  obtain ⟨_, hplan, rfl⟩ := h
  exact ⟨stages, hstages.trans hplan, rfl⟩

/-- Every stage may change its strategy. -/
theorem restaged_map (o : Orchestrator S α) (f : S → S) :
    o.Restaged { o with stages := o.stages.map fun s => { s with strategy := f s.strategy } } :=
  ⟨_, by simp [plan, Stage.slot, Function.comp_def], rfl⟩

/-- An observation does not touch the stages. -/
theorem observe_stages (o : Orchestrator S α) (n : Nat) : (o.observe n).1.stages = o.stages := by
  unfold observe
  split
  · split <;> rfl
  · rfl

theorem observe_current (o : Orchestrator S α) (n : Nat) : (o.observe n).1.current = o.current := by
  unfold observe
  split
  · split <;> rfl
  · rfl

theorem observe_restartLimit (o : Orchestrator S α) (n : Nat) :
    (o.observe n).1.restartLimit = o.restartLimit := by
  unfold observe
  split
  · split <;> rfl
  · rfl

/-- The first observation never finds construction stuck. -/
theorem observe_first (h : o.lastUnassigned = none) (n : Nat) : (o.observe n).2 = false := by
  unfold observe
  rw [h]

/-! ## Stages in the order of their ranks -/

/-- In a list that ascends without a tie the ranks strictly ascend. -/
theorem pairwise_lt_of_firstTie? {stages : List (Stage S)}
    (hle : stages.Pairwise fun a b => a.rank ≤ b.rank) (h : firstTie? stages = none) :
    stages.Pairwise fun a b => a.rank < b.rank := by
  induction stages with
  | nil => exact .nil
  | cons a rest ih =>
    cases rest with
    | nil => exact List.pairwise_singleton _ a
    | cons b rest =>
      unfold firstTie? at h
      split at h
      · cases h
      rename_i hne
      obtain ⟨ha, hrest⟩ := List.pairwise_cons.1 hle
      have hlt := ih hrest h
      refine List.pairwise_cons.2 ⟨fun c hc => ?_, hlt⟩
      have hab : a.rank < b.rank := lt_of_le_of_ne (ha b List.mem_cons_self) hne
      rcases List.mem_cons.1 hc with rfl | hc
      · exact hab
      · exact hab.trans ((List.pairwise_cons.1 hlt).1 c hc)

/-- A new orchestrator rotates the enabled stages, in the strict order of their ranks. -/
structure New (stages : List (Stage S)) (restartLimit : Nat) (o : Orchestrator S α) : Prop where
  plan_perm : o.plan.Perm ((stages.filter fun s => 0 ≤ s.rank).map Stage.slot)
  ascending : (o.plan.map Prod.fst).Pairwise (· < ·)
  plan_ne_nil : o.plan ≠ []
  phase_eq : o.phase = .construction
  current_eq : o.current = 0
  restartLimit_eq : o.restartLimit = max restartLimit 1
  lastUnassigned_eq : o.lastUnassigned = none
  stalled_eq : o.stalled = 0

theorem new_of {construction : Construction α} {stages : List (Stage S)} {restartLimit : Nat}
    {o : Orchestrator S α} (h : Orchestrator.of construction stages restartLimit = .ok o) :
    o.New stages restartLimit := by
  unfold Orchestrator.of at h
  dsimp only at h
  split at h
  · cases h
  rename_i hne
  split at h
  · cases h
  rename_i htie
  cases h
  have hsorted := List.pairwise_mergeSort' (fun a b : Stage S => a.rank ≤ b.rank)
    (stages.filter fun s => 0 ≤ s.rank)
  refine ⟨(List.mergeSort_perm _ _).map _, ?_, ?_, rfl, rfl, rfl, rfl, rfl⟩
  · rw [plan, List.map_map]
    exact List.pairwise_map.2 (pairwise_lt_of_firstTie? hsorted htie)
  · simpa [plan] using hne

/-! ## Entering a phase -/

section

variable [Scalar α] [Model M V α] {s : Solution M α}

theorem switchTo_at (phase : Phase) :
    Leads (At o s) (switchTo phase : Act (Orchestrator S α) M α Unit)
      (fun _ => At { o with phase } s) (At o s) :=
  switchTo_leads (fun _ _ ⟨ho, hs⟩ => ⟨by rw [ho], hs⟩) fun _ _ h => h

omit [Scalar α] in
/-- Entering a phase reports no error. -/
theorem faultsOnly_switchTo (phase : Phase) :
    Attempt.FaultsOnly (switchTo phase : Act (Orchestrator S α) M α Unit) := by
  unfold switchTo
  refine Attempt.faultsOnly_bind (by simp) fun s => ?_
  obtain ⟨o, w⟩ := s
  exact Attempt.faultsOnly_bind (by simp) fun fields => by simp

/-- The stage with this index has its turn, and its phase has been entered. -/
def Entered (index : Nat) (o o' : Orchestrator S α) : Prop :=
  ∃ stage, fetch o.stages index = .ok stage ∧ o' = { o with current := index, phase := stage.phase }

omit [Scalar α] [Model M V α] in
theorem Entered.plan_eq {index : Nat} (h : Entered index o o') : o'.plan = o.plan := by
  obtain ⟨stage, -, rfl⟩ := h
  rfl

omit [Scalar α] [Model M V α] in
theorem Entered.current_eq {index : Nat} (h : Entered index o o') : o'.current = index := by
  obtain ⟨stage, -, rfl⟩ := h
  rfl

omit [Scalar α] [Model M V α] in
theorem Entered.restarts_eq {index : Nat} (h : Entered index o o') : o'.restarts = o.restarts := by
  obtain ⟨stage, -, rfl⟩ := h
  rfl

omit [Scalar α] [Model M V α] in
theorem Entered.rotation_eq {index : Nat} (h : Entered index o o') :
    o'.rotation[o'.current]? = some o'.phase := by
  obtain ⟨stage, hstage, rfl⟩ := h
  rw [rotation, List.getElem?_map, fetch_eq_ok_iff.1 hstage]
  rfl

/-- If a phase cannot be entered, the index of its stage has been noted all the same. -/
theorem enterStage_at (index : Nat) :
    Leads (At o s) (enterStage index : Act (Orchestrator S α) M α Unit)
      (fun _ o' s' => Entered index o o' ∧ s' = s) (At { o with current := index } s) := by
  unfold enterStage
  refine Leads.bind (Q := fun _ => At { o with current := index } s)
    (leads_change fun _ _ ⟨ho, hs⟩ => ⟨by rw [ho], hs⟩) fun _ => ?_
  refine leads_part_bind_at ?_
  refine leads_lift_bind (fun _ _ h => h) fun stage hstage => ?_
  exact (switchTo_at stage.phase).mono_post fun _ _ _ ⟨ho, hs⟩ => ⟨⟨stage, hstage, ho⟩, hs⟩

omit [Scalar α] in
theorem faultsOnly_enterStage (index : Nat) :
    Attempt.FaultsOnly (enterStage index : Act (Orchestrator S α) M α Unit) := by
  unfold enterStage
  refine Attempt.faultsOnly_bind (by simp) fun _ => Attempt.faultsOnly_bind (by simp) fun o => ?_
  exact Attempt.faultsOnly_bind (by simp) fun stage => faultsOnly_switchTo _

end

/-! ## A step of construction -/

section

variable [Model M V α] {exhausted : Nat} {s : Solution M α}

/-- The orchestrator once construction has had its turn, and whether it is stuck. -/
def seen (o : Orchestrator S α) (construction : Construction α) (s : Solution M α) :
    Orchestrator S α × Bool :=
  observe { o with construction } (Model.unassignedCount s.model)

/-- What comes of a step of construction: a restart is due, there is an offer, or the first stage
takes over. -/
inductive Constructed (exhausted : Nat) (o : Orchestrator S α) (s : Solution M α) :
    Except Nat (Option (Proposal V α)) → Orchestrator S α → Prop
  | stuck (construction : Construction α) (hseen : (o.seen construction s).2 = true) :
    Constructed exhausted o s (.error exhausted)
      { (o.seen construction s).1 with phase := .restart }
  | offers (construction : Construction α) {p : Proposal V α}
    (hseen : (o.seen construction s).2 = false) (hp : Construction.Offers s.model p) :
    Constructed exhausted o s (.ok (some p)) (o.seen construction s).1
  | enters (construction : Construction α) {o' : Orchestrator S α}
    (hseen : (o.seen construction s).2 = false)
    (hentered : Entered 0 (o.seen construction s).1 o') :
    Constructed exhausted o s (.error exhausted) o'

/-- What a step of construction leaves that fails: before the observation, or while the next phase
is entered. -/
inductive Unconstructed (o : Orchestrator S α) (s : Solution M α) : Orchestrator S α → Prop
  | early (construction : Construction α) : Unconstructed o s { o with construction }
  | stuck (construction : Construction α) (hseen : (o.seen construction s).2 = true) :
    Unconstructed o s (o.seen construction s).1
  | enters (construction : Construction α) (hseen : (o.seen construction s).2 = false) :
    Unconstructed o s { (o.seen construction s).1 with current := 0 }

variable [Scalar α] [Strategy S M V α]

theorem constructionStep_spec (exhausted : Nat) (hphase : o.phase = .construction) :
    Leads (At o s) (phaseStep exhausted : Act (Orchestrator S α) M α _)
      (fun r o' s' => Constructed exhausted o s r o' ∧ s' = s)
      (fun o' s' => Unconstructed o s o' ∧ s' = s) := by
  unfold phaseStep
  refine leads_part_bind_at ?_
  rw [hphase]
  dsimp only
  -- construction sees nothing of the orchestrator but itself
  refine Leads.bind (Q := fun p? o' s' => s' = s ∧ (∃ construction, o' = { o with construction }) ∧
      ∀ p, p? = some p → Construction.Offers s.model p) (leads_within ?_) fun p? => ?_
  · rintro o' s' ⟨rfl, rfl⟩
    refine (Construction.selects (I := (· = s'))).leads.mono (fun _ _ h => h.2) ?_ ?_
    · rintro p? construction s'' ⟨rfl, hoffer⟩
      exact ⟨rfl, ⟨construction, rfl⟩, hoffer⟩
    · rintro construction s'' rfl
      exact ⟨.early construction, rfl⟩
  refine leads_get_bind fun o' w ⟨hs, ⟨construction, ho⟩, hoffer⟩ => ?_
  subst hs ho
  dsimp only
  refine Leads.bind (Q := fun _ => At (o.seen construction w.solution).1 w.solution)
    (leads_set fun _ _ _ => ⟨rfl, rfl⟩) fun _ => ?_
  split
  · rename_i hseen
    refine Leads.bind ((switchTo_at .restart).mono_error ?_) fun _ => leads_pure ?_
    · rintro _ _ ⟨rfl, rfl⟩
      exact ⟨.stuck construction hseen, rfl⟩
    · rintro _ _ ⟨rfl, rfl⟩
      exact ⟨.stuck construction hseen, rfl⟩
  rename_i hseen
  have hseen : (o.seen construction w.solution).2 = false := by simpa [seen] using hseen
  split
  · rename_i hsome
    obtain ⟨p, rfl⟩ := Option.isSome_iff_exists.1 hsome
    refine leads_pure ?_
    rintro _ _ ⟨rfl, rfl⟩
    exact ⟨.offers construction hseen (hoffer p rfl), rfl⟩
  · refine Leads.bind ((enterStage_at 0).mono_error ?_) fun _ => leads_pure ?_
    · rintro _ _ ⟨rfl, rfl⟩
      exact ⟨.enters construction hseen, rfl⟩
    · rintro o' s' ⟨hentered, rfl⟩
      exact ⟨.enters construction hseen hentered, rfl⟩

/-- A step of construction reports no error. -/
theorem constructionStep_faults {t t' : Orchestrator S α × World M α} {e : Failure}
    (hphase : t.1.phase = .construction)
    (h : (phaseStep exhausted t :
      EStateM.Result Failure _ (Except Nat (Option (Proposal V α)))) = .error e t') :
    ∃ f, e = .fault f := by
  unfold phaseStep at h
  rw [Attempt.bind_of_ok (x := part) (s := t) rfl, hphase] at h
  refine Attempt.FaultsOnly.of_error ?_ h
  refine Attempt.faultsOnly_bind (Attempt.faultsOnly_focus Construction.faultsOnly_select)
    fun proposal => Attempt.faultsOnly_bind (by simp) fun s => ?_
  obtain ⟨o, w⟩ := s
  dsimp only
  refine Attempt.faultsOnly_bind (by simp) fun _ => Attempt.faultsOnly_ite ?_ ?_
  · exact Attempt.faultsOnly_bind (faultsOnly_switchTo _) fun _ => by simp
  refine Attempt.faultsOnly_ite (by simp) ?_
  exact Attempt.faultsOnly_bind (faultsOnly_enterStage _) fun _ => by simp

end

/-! ## A restart -/

section

variable [Model M V α] {exhausted : Nat} {s : Solution M α} {Q : M → Prop}

/-- The run of a loop that takes every variable of a model its value. -/
def Emptying (m : M) : Attempt M PUnit :=
  (List.range (Model.variableCount m)).forM fun v => Attempt.update (Model.unassign · v)

/-- Taking every variable its value changes nothing but the model. -/
theorem unassignAll_spec {E : M → Prop}
    (h : Attempt.Ensures (· = s.model) (Emptying s.model) (fun _ => Q) E) :
    Leads (At o s) (unassignAll : Act (Orchestrator S α) M α Unit)
      (fun _ o' s' => o' = o ∧ Q s'.model ∧ s' = { s with model := s'.model })
      (fun o' s' => o' = o ∧ E s'.model ∧ s' = { s with model := s'.model }) := by
  unfold unassignAll
  refine leads_solution_bind_at (leads_onWorld fun o' => ?_)
  refine Attempt.ensures_focus fun w ⟨ho, hs⟩ => ?_
  subst ho hs
  exact h.mono (fun _ hm => hm) (fun _ _ hm => ⟨rfl, hm, rfl⟩) fun _ hm => ⟨rfl, hm, rfl⟩

variable [Strategy S M V α]

variable (M) in
/-- The orchestrator after a restart that did not fail. -/
def afresh (o : Orchestrator S α) : Orchestrator S α :=
  { o with
    stages := o.stages.map fun s => { s with strategy := Strategy.resetScores M s.strategy }
    restarts := o.restarts + 1, lastUnassigned := none, stalled := 0 }

variable [Scalar α]

/-- A restart fails before it has changed the orchestrator, or while construction is entered. -/
theorem restartStep_spec {E : M → Prop} (exhausted : Nat) (hphase : o.phase = .restart)
    (h : Attempt.Ensures (· = s.model) (Emptying s.model) (fun _ => Q) E) :
    Leads (At o s) (phaseStep exhausted : Act (Orchestrator S α) M α _)
      (fun r o' s' => r = .error exhausted ∧ o' = { o.afresh M with phase := .construction } ∧
        Q s'.model ∧ s' = { s with model := s'.model })
      (fun o' s' => (o' = o ∧ E s'.model ∨ o' = o.afresh M ∧ Q s'.model) ∧
        s' = { s with model := s'.model }) := by
  unfold phaseStep
  refine leads_part_bind_at ?_
  rw [hphase]
  dsimp only
  unfold restart
  simp only [bind_assoc]
  refine Leads.bind ((unassignAll_spec h).mono_error fun _ _ h => ⟨.inl ⟨h.1, h.2.1⟩, h.2.2⟩)
    fun _ => ?_
  refine Leads.bind (Q := fun _ o' s' => o' = o.afresh M ∧ Q s'.model ∧
    s' = { s with model := s'.model }) (leads_change ?_) fun _ => ?_
  · rintro o' s' ⟨rfl, hs⟩
    exact ⟨rfl, hs⟩
  refine leads_part_bind_any fun _ => leads_solution_bind_any fun _ => leads_report_bind fun _ => ?_
  refine leads_of_at fun o' s' ⟨ho, hQ, hs⟩ => ?_
  subst ho
  refine Leads.bind ((switchTo_at .construction).mono_error ?_) fun _ => leads_pure ?_
  · rintro _ _ ⟨rfl, rfl⟩
    exact ⟨.inr ⟨rfl, hQ⟩, hs⟩
  · rintro _ _ ⟨rfl, rfl⟩
    exact ⟨rfl, rfl, hQ, hs⟩

omit [Strategy S M V α] [Scalar α] in
theorem faultsOnly_unassignAll :
    Attempt.FaultsOnly (unassignAll : Act (Orchestrator S α) M α Unit) := by
  unfold unassignAll
  refine Attempt.faultsOnly_bind (by simp) fun s => ?_
  exact Attempt.faultsOnly_focus (Attempt.faultsOnly_focus (Attempt.faultsOnly_forM _ (by simp)))

/-- A restart reports no error. -/
theorem restartStep_faults {t t' : Orchestrator S α × World M α} {e : Failure}
    (hphase : t.1.phase = .restart)
    (h : (phaseStep exhausted t :
      EStateM.Result Failure _ (Except Nat (Option (Proposal V α)))) = .error e t') :
    ∃ f, e = .fault f := by
  have hfaults : Attempt.FaultsOnly
      (do
        restart M
        switchTo .construction
        return .error exhausted :
        Act (Orchestrator S α) M α (Except Nat (Option (Proposal V α)))) := by
    refine Attempt.faultsOnly_bind ?_ fun _ =>
      Attempt.faultsOnly_bind (faultsOnly_switchTo _) fun _ => by simp
    unfold restart
    refine Attempt.faultsOnly_bind faultsOnly_unassignAll fun _ =>
      Attempt.faultsOnly_bind (by simp) fun _ => Attempt.faultsOnly_bind (by simp) fun o => ?_
    exact Attempt.faultsOnly_bind (by simp) fun s => by simp
  refine hfaults t e t' ?_
  rw [← h]
  unfold phaseStep
  rw [Attempt.bind_of_ok (x := part) (s := t) rfl, hphase]

end

/-! ## The turn of a stage -/

section

variable [Strategy S M V α]

omit [Strategy S M V α] in
/-- Whatever an operation on a stage does, the orchestrator sees no more of it than the strategy
that it leaves. -/
theorem inStage_restaged {β : Type} {x : Act S M α β} (index : Nat) :
    Leads (fun o' _ => o.Restaged o')
      (do
        let stage ← fetch (← part).stages index
        within (fun _ => stage.strategy)
          (fun o strategy => { o with stages := o.stages.set index { stage with strategy } }) x :
        Act (Orchestrator S α) M α β)
      (fun _ o' _ => o.Restaged o') (fun o' _ => o.Restaged o') := by
  refine leads_part_bind fun _ _ ho => ?_
  refine leads_lift_bind (fun _ _ h => h.1 ▸ ho) fun stage hstage => ?_
  refine leads_within ?_
  rintro o' s' ⟨rfl, rfl⟩
  have hset (strategy : S) : o.Restaged
      { o' with stages := o'.stages.set index { stage with strategy } } :=
    ho.trans ⟨o'.stages.set index { stage with strategy }, map_set_of_fetch hstage rfl, rfl⟩
  exact Attempt.ensures_of (fun _ _ _ _ _ => hset _) fun _ _ _ _ _ => hset _

theorem ask_restaged (index : Nat) :
    Leads (fun o' _ => o.Restaged o')
      (ask index : Act (Orchestrator S α) M α (Option (Proposal V α)))
      (fun _ o' _ => o.Restaged o') (fun o' _ => o.Restaged o') :=
  inStage_restaged index

variable {exhausted : Nat} {t t' : Orchestrator S α × World M α}

theorem restaged_of_ask {index : Nat} {p? : Option (Proposal V α)} (h : ask index t = .ok p? t') :
    t.1.Restaged t'.1 :=
  (ask_restaged index).of_ok (s := t) (.refl t.1) h

/-- What comes of the turn of a stage: its proposal, the turn of the next stage, or, once every
stage has had one, no proposal. -/
inductive Turned (exhausted : Nat) (t : Orchestrator S α × World M α) :
    Except Nat (Option (Proposal V α)) → Orchestrator S α × World M α → Prop
  | offers {p : Proposal V α} {t' : Orchestrator S α × World M α}
    (hask : ask t.1.current t = .ok (some p) t') : Turned exhausted t (.ok (some p)) t'
  | next {t₁ t' : Orchestrator S α × World M α}
    (hask : ask t.1.current t = .ok (none : Option (Proposal V α)) t₁)
    (hentered : Entered ((t.1.current + 1) % t₁.1.stages.length) t₁.1 t'.1)
    (hcount : exhausted + 1 < t₁.1.stages.length) :
    Turned exhausted t (.error (exhausted + 1)) t'
  | last {t₁ t' : Orchestrator S α × World M α}
    (hask : ask t.1.current t = .ok (none : Option (Proposal V α)) t₁)
    (hentered : Entered ((t.1.current + 1) % t₁.1.stages.length) t₁.1 t'.1)
    (hcount : t₁.1.stages.length ≤ exhausted + 1) : Turned exhausted t (.ok none) t'

/-- What the turn of a stage leaves that fails: as the stage did, or before the next phase. -/
inductive Unturned (t : Orchestrator S α × World M α) : Orchestrator S α → Prop
  | asked {o' : Orchestrator S α} (hrestaged : t.1.Restaged o') : Unturned t o'
  | next {o' : Orchestrator S α} (hrestaged : t.1.Restaged o') :
    Unturned t { o' with current := (t.1.current + 1) % o'.stages.length }

variable [Scalar α] [Model M V α]

/-- Entering the next phase after a stage that had nothing to offer. -/
theorem enterNext_spec {t₁ : Orchestrator S α × World M α}
    (hask : ask t.1.current t = .ok (none : Option (Proposal V α)) t₁) :
    Attempt.Ensures (· = t₁)
      (do
        enterStage ((t.1.current + 1) % t₁.1.stages.length)
        if t₁.1.stages.length ≤ exhausted + 1 then return .ok none
        else return .error (exhausted + 1) : Act (Orchestrator S α) M α _)
      (Turned exhausted t) (fun t' => Unturned t t'.1) := by
  have henter := enterStage_at (M := M) (V := V) (o := t₁.1) (s := t₁.2.solution)
    ((t.1.current + 1) % t₁.1.stages.length)
  refine Attempt.Ensures.bind (Attempt.Ensures.mono henter (fun _ ht => ht ▸ ⟨rfl, rfl⟩)
    (fun _ _ h => h.1) fun t' h => ?_) fun _ => ?_
  · have ht : t'.1 = _ := h.1
    exact ht ▸ .next (restaged_of_ask hask)
  split
  · rename_i hcount
    exact Attempt.ensures_pure fun _ hentered => .last hask hentered hcount
  · rename_i hcount
    exact Attempt.ensures_pure fun _ hentered => .next hask hentered (Nat.lt_of_not_le hcount)

theorem turn_spec (exhausted : Nat) (hphase : t.1.phase.IsAcceptance) :
    Attempt.Ensures (· = t) (phaseStep exhausted : Act (Orchestrator S α) M α _)
      (Turned exhausted t) (fun t' => Unturned t t'.1) := by
  unfold phaseStep
  refine ensures_whole_part_bind ?_
  split
  · rename_i h
    exact absurd h hphase.1
  · rename_i h
    exact absurd h hphase.2
  refine ensures_whole_part_bind ?_
  have hask : Attempt.Ensures (· = t) (ask t.1.current : Act (Orchestrator S α) M α _)
      (fun (p? : Option (Proposal V α)) t₁ => ask t.1.current t = .ok p? t₁)
      (fun t' => Unturned t t'.1) :=
    Attempt.ensures_of (fun _ _ _ ht hrun => ht ▸ hrun) fun _ _ _ ht hrun =>
      .asked ((ask_restaged _).of_error (s := t) (.refl t.1) (ht ▸ hrun))
  refine hask.bind fun p? => ?_
  cases p? with
  | some p => exact Attempt.ensures_pure fun _ hask => .offers hask
  | none =>
    refine Attempt.ensures_of_at fun t₁ hask => ?_
    exact ensures_whole_part_bind (enterNext_spec hask)

/-! ## Preparing for a search -/

/-- Preparing starts with construction and forgets all observations and restarts. If it fails, only
construction and the stages may have changed. -/
theorem init_restaged {s : Solution M α} :
    Leads (At o s) (init : Act (Orchestrator S α) M α Unit)
      (fun _ o' _ => ∃ construction, Restaged { o with
        construction, phase := .construction, current := 0, lastUnassigned := none, stalled := 0,
        restarts := 0 } o')
      (fun o' _ => ∃ construction, Restaged { o with construction } o') := by
  unfold init
  refine Leads.bind (Q := fun _ o' _ => ∃ construction, Restaged { o with construction } o')
    (leads_within fun o' s' h => leads_change ?_) fun _ => ?_
  · obtain ⟨rfl, rfl⟩ := h
    exact fun _ _ _ => ⟨_, .refl _⟩
  refine leads_part_bind fun o' s' ⟨construction, ho⟩ => ?_
  refine Leads.bind (Q := fun _ o' _ => Restaged { o with construction } o')
    (((leads_forM _ fun index _ => inStage_restaged index).mono_error fun _ _ h => ⟨_, h⟩).at
      (s := s') ho) fun _ => ?_
  refine leads_change ?_
  rintro _ _ ⟨stages, hstages, rfl⟩
  exact ⟨construction, stages, hstages, rfl⟩

end

end Orchestrator

end LocalSearch
