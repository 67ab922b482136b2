import LocalSearch.Proofs.Exact
import LocalSearch.Proofs.Model.Reset
import LocalSearch.Proofs.Selection.Kinds
/-!
# What a selection may change

A selection may go back to the best state, and an orchestrator may start anew. Whatever the
strategies do in one call, and however it ends, it leaves the solution in one of a few states.

* `Solution.Moved`: a solution that differs in its assignment, iteration and time only.
* `Solution.Visited`: the states in which a selection may leave a solution.
* `Orchestrator.phaseStep_along`, `Orchestrator.steps_along`: one step of an orchestrator, and a
  call.
* `AnyStrategy.select_frame`: every selection.
-/

namespace LocalSearch

open Act
open Model.Tables (assigned kept clash)

variable {S G M V α : Type} [Model M V α]

/-! ## Where a selection may leave a solution -/

/-- The second solution is the first one with another assignment, iteration and time. -/
structure Solution.Moved [Model.Tables M V] (s : Solution M α) (a : Table V) (iteration : Nat)
    (time : α) (s' : Solution M α) : Prop where
  becomes : Model.Becomes s.model a s'.model
  variableCount_eq : Model.variableCount s'.model = Model.variableCount s.model
  rest : s' = { s with model := s'.model, iteration, time }

/-- Where a selection that began at a solution may be: still there; back at the best state; or with
nothing assigned after a restart, which may have come after going back. Each of the propositions
says whether the one thing may have happened. -/
inductive Solution.Visited [Model.Tables M V] (s : Solution M α) (restarted returned mixed : Prop) :
    Solution M α → Prop
  | same : Visited s restarted returned mixed s
  | best {b : Snapshot α} {s' : Solution M α} (hreturned : returned) (hb : s.best = some b)
    (h : s.Moved (Model.back s.model) b.iteration b.time s') : Visited s restarted returned mixed s'
  | blank {s' : Solution M α} (hrestarted : restarted)
    (h : s.Moved (Table.blank (Model.variableCount s.model)) s.iteration s.time s') :
    Visited s restarted returned mixed s'
  | blankBest {b : Snapshot α} {s' : Solution M α} (hrestarted : restarted) (hmixed : mixed)
    (hb : s.best = some b)
    (h : s.Moved (Table.blank (Model.variableCount s.model)) b.iteration b.time s') :
    Visited s restarted returned mixed s'

namespace Solution

variable {s s' s'' : Solution M α} {b : Snapshot α} {a : Table V} {iteration : Nat} {time : α}
  {restarted restarted' returned returned' mixed : Prop}

theorem moved_self [Model.Tables M V] (s : Solution M α) :
    s.Moved (assigned s.model) s.iteration s.time s :=
  ⟨⟨rfl, rfl, rfl⟩, rfl, rfl⟩

theorem Moved.best_eq [Model.Tables M V] (h : s.Moved a iteration time s') : s'.best = s.best := by
  rw [h.rest]

theorem Visited.mono [Model.Tables M V] (h : s.Visited restarted returned mixed s')
    (hrestarted : restarted → restarted') (hreturned : returned → returned') :
    s.Visited restarted' returned' mixed s' := by
  cases h with
  | same => exact .same
  | best hr hb h => exact .best (hreturned hr) hb h
  | blank hr h => exact .blank (hrestarted hr) h
  | blankBest hr hmixed hb h => exact .blankBest (hrestarted hr) hmixed hb h

theorem Visited.kinds [Model.Tables M V] (h : s.Visited restarted returned mixed s') :
    s' = s ∨
    (returned ∧ ∃ b, s.best = some b ∧ s.Moved (Model.back s.model) b.iteration b.time s') ∨
    (restarted ∧
      s.Moved (Table.blank (Model.variableCount s.model)) s.iteration s.time s') ∨
    (restarted ∧ mixed ∧ ∃ b, s.best = some b ∧
      s.Moved (Table.blank (Model.variableCount s.model)) b.iteration b.time s') := by
  cases h with
  | same => exact .inl rfl
  | best hr hb h => exact .inr (.inl ⟨hr, _, hb, h⟩)
  | blank hr h => exact .inr (.inr (.inl ⟨hr, h⟩))
  | blankBest hr hmixed hb h => exact .inr (.inr (.inr ⟨hr, hmixed, _, hb, h⟩))

/-- Nothing but the model, the iteration and the time is touched. -/
theorem Visited.exists_moved [Model.Tables M V] (h : s.Visited restarted returned mixed s') :
    ∃ (a : Table V) (iteration : Nat) (time : α), s.Moved a iteration time s' := by
  cases h with
  | same => exact ⟨_, _, _, s.moved_self⟩
  | best _ _ h => exact ⟨_, _, _, h⟩
  | blank _ h => exact ⟨_, _, _, h⟩
  | blankBest _ _ _ h => exact ⟨_, _, _, h⟩

variable [Model.Resettable M]

/-- Going back to the best state forgets where the solution was before. -/
theorem Moved.restoreBest (hs : Model.Fitting s.model) (hb : s.best = some b)
    (h : s.Moved a iteration time s') :
    s.Moved (Model.back s.model) b.iteration b.time s'.restoreBest := by
  have hback : Model.back s'.model = Model.back s.model := by
    unfold Model.back
    rw [h.becomes.kept, h.variableCount_eq]
  have hrestore : s'.restoreBest = { s' with
      iteration := b.iteration, time := b.time, model := Model.restoreBest s'.model } := by
    unfold Solution.restoreBest
    rw [h.best_eq, hb]
  rw [hrestore]
  refine ⟨?_, ?_, ?_⟩
  · rw [← hback]
    exact h.becomes.trans (Model.becomes_restoreBest s'.model)
  · have hlength : (Model.back s'.model).length = Model.variableCount s'.model := by
      rw [hback, hs.length_back, h.variableCount_eq]
    exact (Model.Resettable.variableCount_restoreBest hlength).trans h.variableCount_eq
  · exact congrArg (fun x : Solution M α => { x with
      iteration := b.iteration, time := b.time, model := Model.restoreBest s'.model }) h.rest

theorem Visited.keptByRestore (hs : Model.Fitting s.model) (hreturned : returned) :
    KeptByRestore (s.Visited restarted returned mixed) := by
  intro s' h
  cases hb : s.best with
  | none =>
    -- with no best state to go back to nothing happens
    obtain ⟨a, iteration, time, hmoved⟩ := h.exists_moved
    have hsame : s'.restoreBest = s' := by
      unfold Solution.restoreBest
      rw [hmoved.best_eq, hb]
    rw [hsame]
    exact h
  | some b =>
    obtain ⟨a, iteration, time, hmoved⟩ := h.exists_moved
    exact .best hreturned hb (hmoved.restoreBest hs hb)

/-- After all values are taken away it matters only whether the solution had gone back before. -/
theorem Visited.restart (hmixed : returned → mixed)
    (h : s.Visited restarted returned mixed s') {m : M}
    (hm : Model.Becomes s'.model (Table.blank (Model.variableCount s'.model)) m)
    (hcount : Model.variableCount m = Model.variableCount s'.model) (hrestarted : restarted') :
    s.Visited restarted' returned' mixed { s' with model := m } := by
  have hmoved {a : Table V} {iteration : Nat} {time : α} (h : s.Moved a iteration time s') :
      s.Moved (Table.blank (Model.variableCount s.model)) iteration time { s' with model := m } :=
    ⟨h.variableCount_eq ▸ h.becomes.trans hm, hcount.trans h.variableCount_eq,
      congrArg (fun x : Solution M α => { x with model := m }) h.rest⟩
  cases h with
  | same => exact .blank hrestarted (hmoved s.moved_self)
  | best hreturned hb h => exact .blankBest hrestarted (hmixed hreturned) hb (hmoved h)
  | blank _ h => exact .blank hrestarted (hmoved h)
  | blankBest _ hmixed hb h => exact .blankBest hrestarted hmixed hb (hmoved h)

/-- The assignment has an entry for every variable wherever a selection may be. -/
theorem Visited.length_assigned (hs : Model.Fitting s.model)
    (h : s.Visited restarted returned mixed s') :
    (assigned s'.model).length = Model.variableCount s'.model := by
  cases h with
  | same => exact hs.length_assigned
  | best _ _ h => rw [h.becomes.assigned, h.variableCount_eq, hs.length_back]
  | blank _ h => rw [h.becomes.assigned, h.variableCount_eq]; exact List.length_replicate
  | blankBest _ _ _ h => rw [h.becomes.assigned, h.variableCount_eq]; exact List.length_replicate

end Solution

/-! ## Orchestrators -/

namespace Orchestrator

variable [Model.Resettable M] {s s' : Solution M α} {o o₀ : Orchestrator S α}

/-- Between two steps of a call that began with the orchestrator `o₀` and the solution `s`. Once the
solution has gone back, only acceptance phases follow, if all stages stand for such phases. -/
structure Along (o₀ : Orchestrator S α) (s : Solution M α) (o : Orchestrator S α)
    (s' : Solution M α) : Prop where
  rotation_eq : o.rotation = o₀.rotation
  restarts_le : o₀.restarts ≤ o.restarts
  visited : s.Visited (o₀.restarts < o.restarts) (o₀.Rotates → o.phase.IsAcceptance)
    (¬ o₀.Rotates) s'

/-- Where a call may end, with an answer or with an error. -/
def Ends (o₀ : Orchestrator S α) (s : Solution M α) (o : Orchestrator S α) (s' : Solution M α) :
    Prop :=
  s.Visited (o₀.restarts < o.restarts) True (¬ o₀.Rotates) s'

theorem Along.ends (h : Along o₀ s o s') : Ends o₀ s o s' :=
  h.visited.mono (fun h => h) fun _ => trivial

theorem Along.of_eq {o' : Orchestrator S α} (h : Along o₀ s o s')
    (hrotation : o'.rotation = o.rotation) (hrestarts : o'.restarts = o.restarts)
    (hphase : o'.phase = o.phase) : Along o₀ s o' s' := by
  refine ⟨hrotation.trans h.rotation_eq, hrestarts.symm ▸ h.restarts_le, ?_⟩
  rw [hrestarts, hphase]
  exact h.visited

/-- An orchestrator may always enter an acceptance phase, and any phase from construction and after
a restart. -/
theorem Along.enter {phase : Phase} (h : Along o₀ s o s')
    (hphase : o₀.Rotates → o.phase.IsAcceptance → phase.IsAcceptance) :
    Along o₀ s { o with phase } s' :=
  ⟨h.rotation_eq, h.restarts_le,
    h.visited.mono (fun h => h) fun h hrotates => hphase hrotates (h hrotates)⟩

theorem observe_restarts (o : Orchestrator S α) (n : Nat) :
    (o.observe n).1.restarts = o.restarts := by
  unfold observe
  split
  · split <;> rfl
  · rfl

variable [Scalar α]

theorem switchTo_along {phase : Phase} (h : Along o₀ s o s')
    (hphase : o₀.Rotates → o.phase.IsAcceptance → phase.IsAcceptance) :
    Leads (At o s') (switchTo phase : Act (Orchestrator S α) M α Unit) (fun _ => Along o₀ s)
      (Ends o₀ s) := by
  refine switchTo_leads ?_ ?_
  · rintro _ _ ⟨rfl, rfl⟩
    exact h.enter hphase
  · rintro _ _ ⟨rfl, rfl⟩
    exact h.ends

theorem enterStage_along (index : Nat) (h : Along o₀ s o s') :
    Leads (At o s') (enterStage index : Act (Orchestrator S α) M α Unit) (fun _ => Along o₀ s)
      (Ends o₀ s) := by
  unfold enterStage
  refine Leads.bind (Q := fun _ => At { o with current := index } s') (leads_change ?_) fun _ => ?_
  · rintro _ _ ⟨rfl, rfl⟩
    exact ⟨rfl, rfl⟩
  have h : Along o₀ s { o with current := index } s' := h.of_eq rfl rfl rfl
  refine leads_part_bind_at (leads_lift_bind ?_ fun stage hstage => switchTo_along h ?_)
  · rintro _ _ ⟨rfl, rfl⟩
    exact h.ends
  · -- the phase that is entered is one of the rotation
    intro hrotates _
    have hmem : stage.phase ∈ o.rotation :=
      List.mem_map_of_mem (List.mem_of_getElem? (fetch_eq_ok_iff.1 hstage))
    exact hrotates _ (h.rotation_eq ▸ hmem)

omit [Scalar α] in
theorem unassignAll_along (hs : Model.Fitting s.model) (h : Along o₀ s o s')
    (hphase : o.phase = .restart) :
    Leads (At o s') (unassignAll : Act (Orchestrator S α) M α Unit)
      (fun _ o' s'' => o' = o ∧ ∀ restarted returned : Prop, restarted →
        s.Visited restarted returned (¬ o₀.Rotates) s'')
      (Ends o₀ s) := by
  unfold unassignAll
  refine leads_solution_bind_at ?_
  have hall := Model.unassign_range_ensures (h.visited.length_assigned hs)
  refine leads_of_at fun t u ht => leads_onWorld fun t' => Attempt.ensures_focus fun w hw => ?_
  obtain ⟨rfl, rfl⟩ := ht
  obtain ⟨rfl, rfl⟩ := hw
  refine hall.mono (fun _ h => h) (fun _ m hm => ⟨rfl, fun _ _ hrestarted => ?_⟩) fun _ h => h.elim
  refine h.visited.restart (fun hreturned hrotates => ?_) hm.1 hm.2 hrestarted
  -- an orchestrator of acceptance phases never restarts after it has gone back
  exact (hphase ▸ hreturned hrotates).2 rfl

variable [Strategy S M V α]

omit [Scalar α] in
/-- A restart is counted. -/
theorem restart_along (hs : Model.Fitting s.model) (h : Along o₀ s o s')
    (hphase : o.phase = .restart) :
    Leads (At o s') (restart M (V := V) : Act (Orchestrator S α) M α Unit)
      (fun _ o' s'' => Along o₀ s o' s'' ∧ o'.phase = .restart) (Ends o₀ s) := by
  unfold restart
  refine Leads.bind (unassignAll_along hs h hphase) fun _ => ?_
  refine Leads.bind (Q := fun _ o' s'' => Along o₀ s o' s'' ∧ o'.phase = .restart)
    (leads_change ?_) fun _ => ?_
  · rintro _ s'' ⟨rfl, hvisited⟩
    have hlt := Nat.lt_succ_of_le h.restarts_le
    refine ⟨⟨?_, Nat.le_of_lt hlt, hvisited _ _ hlt⟩, hphase⟩
    rw [← h.rotation_eq]
    simp [rotation, Function.comp_def]
  refine leads_part_bind_any fun o => leads_solution_bind_any fun s => ?_
  exact leads_report fun _ _ h => h

/-- What holds after a step: the call goes on, or it has its answer. -/
def Stepping (o₀ : Orchestrator S α) (s : Solution M α) :
    Except Nat (Option (Proposal V α)) → Orchestrator S α → Solution M α → Prop
  | .error _, o, s' => Along o₀ s o s'
  | .ok _, o, s' => Ends o₀ s o s'

omit [Strategy S M V α] in
/-- After a construction call an orchestrator turns to a restart, passes on what construction
proposed, or hands over to the first stage. -/
theorem constructionStep_along (p? : Option (Proposal V α)) (exhausted : Nat) (stuck : Bool)
    (h : Along o₀ s o s') (hphase : ¬ o.phase.IsAcceptance) :
    Leads (At o s')
      (do
        if stuck then
          switchTo .restart
          return .error exhausted
        else if p?.isSome then return .ok p?
        else
          enterStage 0
          return .error exhausted : Act (Orchestrator S α) M α _)
      (Stepping o₀ s) (Ends o₀ s) := by
  split
  · exact Leads.bind (switchTo_along h fun _ hp => absurd hp hphase) fun _ =>
      leads_pure fun _ _ h => h
  split
  · refine leads_pure ?_
    rintro _ _ ⟨rfl, rfl⟩
    exact h.ends
  · exact Leads.bind (enterStage_along 0 h) fun _ => leads_pure fun _ _ h => h

/-- One step of a call. -/
theorem phaseStep_along
    (hS : ∀ I : Solution M α → Prop, KeptByRestore I → Strategy.Selects S I fun _ _ => True)
    (hs : Model.Fitting s.model) (exhausted : Nat) :
    Leads (Along o₀ s) (phaseStep exhausted : Act (Orchestrator S α) M α _) (Stepping o₀ s)
      (Ends o₀ s) := by
  unfold phaseStep
  refine leads_part_bind fun o s' h => ?_
  -- what is asked here cannot change the rotation, the count of restarts and the phase
  let K (o' : Orchestrator S α) : Prop :=
    o'.rotation = o.rotation ∧ o'.restarts = o.restarts ∧ o'.phase = o.phase
  split
  · rename_i hphase
    have hconstruction : Leads (fun o' t => t = s' ∧ K o')
        (onConstruction Construction.select : Act (Orchestrator S α) M α (Option (Proposal V α)))
        (fun _ o' t => t = s' ∧ K o') (fun o' t => t = s' ∧ K o') :=
      leads_within_of_ensures (Act.Ensures.mono_post Construction.selects fun _ _ h => h.1)
        fun _ _ h => h
    refine Leads.bind (Leads.at (hconstruction.mono_error ?_) ⟨rfl, rfl, rfl, rfl⟩) fun p? => ?_
    · rintro o' _ ⟨rfl, hrotation, hrestarts, hphase⟩
      exact (h.of_eq hrotation hrestarts hphase).ends
    refine leads_get_bind fun o' w ⟨hw, hrotation, hrestarts, hphase'⟩ => ?_
    have h' : Along o₀ s (o'.observe (Model.unassignedCount w.solution.model)).1 w.solution := by
      rw [hw]
      exact h.of_eq ((observe_rotation _ _).trans hrotation)
        ((observe_restarts _ _).trans hrestarts) ((observe_phase _ _).trans hphase')
    have hnot : ¬ (o'.observe (Model.unassignedCount w.solution.model)).1.phase.IsAcceptance := by
      rw [observe_phase, hphase', hphase]
      exact fun h => h.1 rfl
    refine Leads.bind
      (Q := fun _ => At (o'.observe (Model.unassignedCount w.solution.model)).1 w.solution)
      (leads_set fun _ _ _ => ⟨rfl, rfl⟩) fun _ => ?_
    exact constructionStep_along p? exhausted _ h' hnot
  · rename_i hphase
    refine Leads.bind (restart_along hs h hphase) fun _ => leads_of_at fun o' s'' ⟨h', hphase'⟩ => ?_
    refine Leads.bind (switchTo_along h' fun _ haccept => ?_) fun _ => leads_pure fun _ _ h => h
    exact absurd hphase' haccept.2
  · rename_i hconstruction hrestart
    have haccept : o₀.Rotates → o.phase.IsAcceptance := fun _ => ⟨hconstruction, hrestart⟩
    have hback : KeptByRestore (s.Visited (o₀.restarts < o.restarts)
        (o₀.Rotates → o.phase.IsAcceptance) (¬ o₀.Rotates)) :=
      Solution.Visited.keptByRestore hs haccept
    have halong {o' : Orchestrator S α} {s'' : Solution M α} (hvisited : s.Visited
        (o₀.restarts < o.restarts) (o₀.Rotates → o.phase.IsAcceptance) (¬ o₀.Rotates) s'')
        (hK : K o') : Along o₀ s o' s'' :=
      (Along.mk h.rotation_eq h.restarts_le hvisited).of_eq hK.1 hK.2.1 hK.2.2
    refine leads_part_bind_at ?_
    have hask := ask_leads (K := K) (hS _ hback)
      (fun o' index stage strategy hstage hK => ⟨(rotation_set hstage strategy).trans hK.1, hK.2⟩)
      o.current
    refine Leads.bind ((hask.mono_error fun o' s'' h' => (halong h'.1 h'.2).ends).at
      ⟨h.visited, rfl, rfl, rfl⟩) fun p? => ?_
    cases p? with
    | some p => exact leads_pure fun o' s'' h' => (halong h'.1.1 h'.2).ends
    | none =>
      refine leads_part_bind fun o' s'' h' => ?_
      refine Leads.bind (enterStage_along _ (halong h'.1.1 h'.2)) fun _ => ?_
      split
      · exact leads_pure fun _ _ h => h.ends
      · exact leads_pure fun _ _ h => h

/-- The steps of a call. -/
theorem steps_along
    (hS : ∀ I : Solution M α → Prop, KeptByRestore I → Strategy.Selects S I fun _ _ => True)
    (hs : Model.Fitting s.model) (exhausted fuel : Nat) :
    Leads (Along o₀ s)
      (steps exhausted fuel : Act (Orchestrator S α) M α (Option (Proposal V α)))
      (fun _ => Ends o₀ s) (Ends o₀ s) := by
  -- by induction on the steps left
  induction fuel generalizing exhausted with
  | zero => exact leads_throw fun _ _ h => h.ends
  | succ fuel ih =>
    unfold steps
    refine Leads.bind (phaseStep_along hS hs exhausted) fun r => ?_
    cases r with
    | ok p? => exact leads_pure fun _ _ h => h
    | error exhausted => exact ih exhausted

theorem select_ends
    (hS : ∀ I : Solution M α → Prop, KeptByRestore I → Strategy.Selects S I fun _ _ => True)
    (hs : Model.Fitting s.model) (o : Orchestrator S α) :
    Leads (At o s) (select : Act (Orchestrator S α) M α (Option (Proposal V α)))
      (fun _ => Ends o s) (Ends o s) := by
  unfold select
  refine leads_part_bind_at ?_
  exact (steps_along hS hs 0 o.stepLimit).at ⟨rfl, Nat.le_refl _, .same⟩

end Orchestrator

/-! ## Every strategy -/

section

variable [Scalar α] [MoveGenerator G M V α] {s : Solution M α}

/-- A strategy that never changes the solution. -/
def BasicStrategy.IsSteady : BasicStrategy G α → Prop
  | hillClimbing _ | greatDeluge _ | construction _ => True
  | simulatedAnnealing _ | group _ => False

/-- A strategy that never changes the solution. -/
def AnyStrategy.IsSteady : AnyStrategy G α → Prop
  | basic b => b.IsSteady
  | orchestrator _ => False

/-- How often a strategy has started anew. Only orchestrators do. -/
def AnyStrategy.restarts : AnyStrategy G α → Nat
  | basic _ => 0
  | orchestrator o => o.restarts

variable [Model.Resettable M]

/-- A strategy without parts stays where it is or goes back to the best state. -/
theorem BasicStrategy.select_visited (hs : Model.Fitting s.model) (b : BasicStrategy G α) :
    Leads (At b s) (Strategy.select : Act (BasicStrategy G α) M α (Option (Proposal V α)))
      (fun _ _ s' => s.Visited False True False s' ∧ (b.IsSteady → s' = s))
      (fun _ s' => s.Visited False True False s' ∧ (b.IsSteady → s' = s)) := by
  have hG := MoveGenerator.proposes_any (G := G) (M := M)
  have hback : KeptByRestore (s.Visited False True False) :=
    Solution.Visited.keptByRestore hs trivial
  -- a steady strategy keeps any property, so also that of being this very solution
  have hsteady {T : Type} [Strategy T M V α] {held : T} {wrap : T → BasicStrategy G α}
      {Ψ : M → Proposal V α → Prop} (h : Strategy.Selects T (· = s) Ψ) :
      Leads (At b s) (Act.inside held wrap Strategy.select)
        (fun _ _ s' => s.Visited False True False s' ∧ (b.IsSteady → s' = s))
        (fun _ s' => s.Visited False True False s' ∧ (b.IsSteady → s' = s)) := by
    refine leads_inside ((h.leads.mono (fun _ _ h => h) ?_ ?_).at rfl)
    · rintro _ _ _ ⟨rfl, -⟩
      exact ⟨.same, fun _ => rfl⟩
    · rintro _ _ rfl
      exact ⟨.same, fun _ => rfl⟩
  have hother {T : Type} [Strategy T M V α] {held : T} {wrap : T → BasicStrategy G α}
      {Ψ : M → Proposal V α → Prop} (h : Strategy.Selects T (s.Visited False True False) Ψ)
      (hb : ¬ b.IsSteady) :
      Leads (At b s) (Act.inside held wrap Strategy.select)
        (fun _ _ s' => s.Visited False True False s' ∧ (b.IsSteady → s' = s))
        (fun _ s' => s.Visited False True False s' ∧ (b.IsSteady → s' = s)) :=
    leads_inside ((h.leads.mono (fun _ _ h => h) (fun _ _ _ h => ⟨h.1, fun h => absurd h hb⟩)
      fun _ _ h => ⟨h, fun h => absurd h hb⟩).at .same)
  show Leads (At b s) BasicStrategy.select _ _
  unfold BasicStrategy.select
  refine leads_part_bind_at ?_
  cases b with
  | hillClimbing _ => exact hsteady (HillClimbing.selects hG)
  | greatDeluge _ => exact hsteady (GreatDeluge.selects hG)
  | simulatedAnnealing _ => exact hother (SimulatedAnnealing.selects hG hback) id
  | group _ => exact hother (Group.selects hG hback) id
  | construction _ => exact hsteady Construction.selects

/-- A selection of any strategy ends where `Solution.Visited` says. -/
theorem AnyStrategy.select_visited (hs : Model.Fitting s.model) (t : AnyStrategy G α) :
    Leads (At t s) (Strategy.select : Act (AnyStrategy G α) M α (Option (Proposal V α)))
      (fun _ t' s' => s.Visited (t.restarts < t'.restarts) True (¬ t.Rotates) s' ∧
        (t.IsSteady → s' = s))
      (fun t' s' => s.Visited (t.restarts < t'.restarts) True (¬ t.Rotates) s' ∧
        (t.IsSteady → s' = s)) := by
  show Leads (At t s) AnyStrategy.select _ _
  unfold AnyStrategy.select
  refine leads_part_bind_at ?_
  cases t with
  | basic b =>
    have hfrom {r : Prop} {s' : Solution M α} (h : s.Visited False True False s') :
        s.Visited r True (¬ (basic b : AnyStrategy G α).Rotates) s' := by
      cases h with
      | same => exact .same
      | best h hb hmoved => exact .best h hb hmoved
      | blank h _ => exact h.elim
      | blankBest h _ _ _ => exact h.elim
    exact leads_inside ((BasicStrategy.select_visited hs b).mono (fun _ _ h => h)
      (fun _ _ _ h => ⟨hfrom h.1, h.2⟩) fun _ _ h => ⟨hfrom h.1, h.2⟩)
  | orchestrator o =>
    have hbasic (I : Solution M α → Prop) (hI : KeptByRestore I) :
        Strategy.Selects (BasicStrategy G α) I fun _ _ => True :=
      (BasicStrategy.selects MoveGenerator.proposes_any hI).mono fun _ _ _ => trivial
    exact leads_inside ((Orchestrator.select_ends hbasic hs o).mono (fun _ _ h => h)
      (fun _ _ _ h => ⟨h, fun h => h.elim⟩) fun _ _ h => ⟨h, fun h => h.elim⟩)

/-- Whether a selection answers or fails, it leaves the best snapshot, the assignment that the model
keeps as the best and the count of all iterations alone. The assignment, the iteration and the time
are those of before; or those of the best state; or nothing is assigned, after a restart that was
counted, and the iteration and the time are those of before. Only if an orchestrator has stages that
stand for construction or restarting, it may have gone back to the best iteration and time before it
restarted. Hill climbing, the great deluge and construction leave the whole solution alone. -/
theorem AnyStrategy.select_frame (t : AnyStrategy G α) (w : World M α)
    (hm : Model.Fitting w.solution.model) :
    let left := Attempt.after
      (Strategy.select : Act (AnyStrategy G α) M α (Option (Proposal V α))) (t, w)
    let s := w.solution
    let s' := left.2.solution
    let restarted := t.restarts < left.1.restarts
    let nothing : Table V := Table.blank (Model.variableCount s.model)
    (s'.best = s.best ∧ kept s'.model = kept s.model ∧
      s'.totalIterations = s.totalIterations) ∧
    (s' = s ∨
      (∃ b, s.best = some b ∧ assigned s'.model = (kept s.model).getD nothing ∧
        s'.iteration = b.iteration ∧ s'.time = b.time) ∨
      (restarted ∧ assigned s'.model = nothing ∧ s'.iteration = s.iteration ∧ s'.time = s.time) ∨
      (restarted ∧ ¬ t.Rotates ∧ ∃ b, s.best = some b ∧ assigned s'.model = nothing ∧
        s'.iteration = b.iteration ∧ s'.time = b.time)) ∧
    (t.IsSteady → s' = s) := by
  intro left s s' restarted nothing
  obtain ⟨hvisited, hsteady⟩ : s.Visited restarted True (¬ t.Rotates) s' ∧ (t.IsSteady → s' = s) :=
    Attempt.Ensures.after (AnyStrategy.select_visited hm t) ⟨rfl, rfl⟩
  obtain ⟨_, _, _, hmoved⟩ := hvisited.exists_moved
  refine ⟨⟨hmoved.best_eq, hmoved.becomes.kept, by rw [hmoved.rest]⟩, ?_, hsteady⟩
  rcases hvisited.kinds with h | ⟨-, b, hb, h⟩ | ⟨hr, h⟩ | ⟨hr, hmixed, b, hb, h⟩
  · exact .inl h
  · exact .inr (.inl ⟨b, hb, h.becomes.assigned, by rw [h.rest], by rw [h.rest]⟩)
  · exact .inr (.inr (.inl ⟨hr, h.becomes.assigned, by rw [h.rest], by rw [h.rest]⟩))
  · exact .inr (.inr (.inr
      ⟨hr, hmixed, b, hb, h.becomes.assigned, by rw [h.rest], by rw [h.rest]⟩))

end

/-! ## Annealing with short periods -/

/-- Annealing that reheats after two iterations, and goes back to the best state after four. It has
nothing to propose on a single variable. -/
def shortAnnealing : SimulatedAnnealing (Generator Empty ℚ) ℚ :=
  .of ⟨[.of "swap" (.basic (.swap false)) 0], .fresh 1, {}, false⟩
    (.of { AnnealingConfig.standard with
      tempLengthCoef := 0, reheatLengthCoef := 1, restoreBestLengthCoef := some 3 } false)

/-- A stage that stands for annealing and one that stands for restarting. -/
def restartingRotation : Orchestrator (BasicStrategy (Generator Empty ℚ) ℚ) ℚ where
  construction := .of .standard
  stages := [⟨0, .simulatedAnnealing, .simulatedAnnealing shortAnnealing⟩,
    ⟨1, .restart, .simulatedAnnealing shortAnnealing⟩]
  phase := .construction
  current := 0
  restartLimit := 5
  lastUnassigned := none
  stalled := 0
  restarts := 0

/-- One variable with two options, which has the first one. -/
def oneVariable : World (Penalty ℚ) ℚ :=
  .ofSolution (.ofModel ⟨[[0, 1]], [some 0], none, 0⟩) (.standard 0) none

/-- A search begins, keeps its first state as the best one, and counts an iteration. -/
def beginning : Act (AnyStrategy (Generator Empty ℚ) ℚ) (Penalty ℚ) ℚ Unit := do
  Strategy.init
  Act.onWorld World.saveBest
  Act.onWorld (modify (·.update 1))

/-- The next proposal, which is dropped. -/
def selection : Act (AnyStrategy (Generator Empty ℚ) ℚ) (Penalty ℚ) ℚ Unit := do
  let _ ← (Strategy.select : Act _ _ ℚ (Option (Proposal Nat ℚ)))

/-- The rotation with the restarting stage before its first call. -/
def beforeRestart : AnyStrategy (Generator Empty ℚ) ℚ × World (Penalty ℚ) ℚ :=
  beginning.after (.orchestrator restartingRotation, oneVariable)

/-- In the first call the annealing stage hands over, and the next stage restarts. -/
theorem AnyStrategy.select_frame_restart :
    let left := Attempt.after (Strategy.select : Act _ _ ℚ (Option (Proposal Nat ℚ))) beforeRestart
    Model.Fitting beforeRestart.2.solution.model ∧ kept left.2.solution.model = some [some 0] ∧
      (left.1.restarts, assigned left.2.solution.model, left.2.solution.iteration) =
        (beforeRestart.1.restarts + 1, [none], beforeRestart.2.solution.iteration) := by
  have hframe (start : AnyStrategy (Generator Empty ℚ) ℚ × World (Penalty ℚ) ℚ)
      (hm : Model.Fitting start.2.solution.model) :
      kept (Attempt.after (Strategy.select : Act _ _ ℚ (Option (Proposal Nat ℚ)))
        start).2.solution.model = kept start.2.solution.model :=
    (select_frame start.1 start.2 hm).1.2.1
  have hkept : kept beforeRestart.2.solution.model = some [some 0] := by decide +kernel
  have hm : Model.Fitting beforeRestart.2.solution.model := by
    refine Penalty.fitting_of_kept fun k hk => ?_
    cases hkept.symm.trans hk
    decide +kernel
  exact ⟨hm, (hframe beforeRestart hm).trans hkept, by decide +kernel⟩

/-- The second solution has the assignment of the first one, or none, at its iteration and time; or
the one that the model keeps, at the iteration and time of the best state. -/
def Solution.Framed [Model.Tables M V] (s s' : Solution M α) : Prop :=
  (assigned s'.model = assigned s.model ∧ s'.iteration = s.iteration ∧ s'.time = s.time) ∨
  (∃ b, s.best = some b ∧ kept s.model = some (assigned s'.model) ∧
    s'.iteration = b.iteration ∧ s'.time = b.time) ∨
  (assigned s'.model = Table.blank (Model.variableCount s.model) ∧
    s'.iteration = s.iteration ∧ s'.time = s.time)

theorem Solution.not_framed [Model.Tables M V] {s s' : Solution M α}
    (hiteration : s'.iteration ≠ s.iteration) (hkept : kept s.model ≠ some (assigned s'.model)) :
    ¬ s.Framed s' := by
  rintro (⟨-, h, -⟩ | ⟨b, -, h, -⟩ | ⟨-, h, -⟩)
  · exact hiteration h
  · exact hkept h
  · exact hiteration h

/-- Annealing that has handed over once, at a solution with a best state whose model has forgotten
its best assignment. -/
def afterForgetting : AnyStrategy (Generator Empty ℚ) ℚ × World (Penalty ℚ) ℚ :=
  Attempt.after (do
    beginning
    Act.onWorld (World.onModel (modify Model.clearBest))
    selection) (.basic (.simulatedAnnealing shortAnnealing), oneVariable)

/-- The rotation with the restarting stage after its first restart, with the variable assigned
again. -/
def afterRestart : AnyStrategy (Generator Empty ℚ) ℚ × World (Penalty ℚ) ℚ :=
  Attempt.after (do
    beginning
    selection
    Act.onWorld (World.onModel (Model.put 0 0)))
    (.orchestrator restartingRotation, oneVariable)

/-- Two selections that leave nothing assigned at the iteration of the best state. In the first one
annealing goes back to an assignment that the model no longer keeps; in the second one a stage that
stands for restarting follows one that went back. -/
theorem AnyStrategy.select_off_frame :
    ¬ afterForgetting.2.solution.Framed (selection.after afterForgetting).2.solution ∧
    ¬ afterRestart.2.solution.Framed (selection.after afterRestart).2.solution := by
  constructor
  · exact Solution.not_framed (by decide +kernel) (by decide +kernel)
  · exact Solution.not_framed (by decide +kernel) (by decide +kernel)

end LocalSearch
