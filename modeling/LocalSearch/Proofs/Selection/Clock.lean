import LocalSearch.Proofs.Alike
import LocalSearch.Proofs.Computation
import LocalSearch.Proofs.Selection.Steps
import LocalSearch.Strategy.Kinds
/-!
# Selections do not look at the clock

The only thing that a strategy does with the time is to pass it on when a move is learned from, and
only one of the three learning methods uses it.

* `Heuristic.Untimed`: the heuristic learns by one of the two others.
* `Strategy.Timeless`: preparing a strategy and asking it for a proposal does the same whatever the
  times in the world are.
* `AnyStrategy.timeless`: so do all strategies, if their heuristics are untimed.
-/

namespace LocalSearch

open Act
open Attempt (twin_firstOf twin_forM twin_get_bind twin_ite twin_lift_bind twin_modify
  twin_modifyGet twin_pure twin_set twin_throw twin_when)

variable {S M V G α β : Type}

/-! ## Learning -/

/-- Only one method weighs a move by the time. -/
theorem learningIncrement_of_ne [Scalar α] {method : LearningMethod} (h : method ≠ .timeWeighted)
    (delta time time' : α) :
    learningIncrement method delta time = learningIncrement method delta time' := by
  cases method with
  | count => rfl
  | timeWeighted => exact (h rfl).elim
  | delta => rfl

/-- The sequence learns by a method that does not use the time. -/
def Sequence.Untimed (s : Sequence G α) : Prop :=
  s.config.learningMethod ≠ .timeWeighted

/-- The heuristic learns by a method that does not use the time. -/
def Heuristic.Untimed (h : Heuristic G α) : Prop :=
  h.sequence.Untimed

variable [Scalar α]

namespace Heuristic

variable {h h' : Heuristic G α} {index : Nat} {delta time : α}

theorem improve_of_ne {method : LearningMethod} (hmethod : method ≠ .timeWeighted)
    (h : Heuristic G α) (index : Nat) (delta time time' : α) :
    h.improve method index delta time = h.improve method index delta time' := by
  unfold improve Sequence.learn
  rw [learningIncrement_of_ne hmethod delta time time']

theorem Untimed.reward_eq (hh : h.Untimed) (index : Nat) (delta time time' : α) :
    h.reward index delta time = h.reward index delta time' := by
  unfold reward
  rw [improve_of_ne hh h index delta time time']

theorem Untimed.improve (hh : h.Untimed) {method : LearningMethod}
    (hrun : h.improve method index delta time = .ok h') : h'.Untimed := by
  obtain ⟨sequence, hsequence, hrun⟩ := bind_eq_ok_iff.1 hrun
  obtain ⟨scores, -, hsequence⟩ := bind_eq_ok_iff.1 hsequence
  cases hsequence
  cases hrun
  exact hh

theorem Untimed.reward (hh : h.Untimed) (hrun : h.reward index delta time = .ok h') :
    h'.Untimed := by
  obtain ⟨h₁, himprove, hrun⟩ := bind_eq_ok_iff.1 hrun
  have h₁untimed := hh.improve himprove
  cases hrun
  exact h₁untimed

end Heuristic

omit [Scalar α] in
/-- An update of the part that comes to the same. -/
theorem Act.twin_onPart_update {F : S → Prop} {p q : S → Except Fault S}
    (h : ∀ s, F s → q s = p s) (hF : ∀ s s', F s → p s = .ok s' → F s') :
    Twin F (onPart (Attempt.update p) : Act S M α Unit) (onPart (Attempt.update q)) := by
  refine Attempt.twin_focus (Q := fun s t => F s ∧ t = s) (fun _ _ h => ⟨h.1, h.2.1⟩)
    (fun _ _ _ _ h h' => ⟨h'.1, h'.2, h.2.2⟩) (Attempt.twin_update ?_)
  rintro _ s ⟨hs, rfl⟩
  rw [h s hs]
  cases hp : p s with
  | ok s' => exact .inl ⟨s', s', rfl, rfl, hF s s' hs hp, rfl⟩
  | error e => exact .inr ⟨e, rfl, rfl⟩

/-- Learning from a move, each run at its own time. -/
theorem twin_reward (index : Nat) (delta time time' : α) :
    Twin Heuristic.Untimed
      (onPart (Attempt.update fun h => h.reward index delta time) :
        Act (Heuristic G α) M α Unit)
      (onPart (Attempt.update fun h => h.reward index delta time')) :=
  twin_onPart_update (fun _ h => h.reward_eq index delta time' time) fun _ _ h hrun => h.reward hrun

/-! ## Draws -/

theorem Sequence.timeless_pick (chain : List Nat) :
    Timeless Sequence.Untimed (Sequence.pick chain : Act (Sequence G α) M α Nat) := by
  unfold Sequence.pick
  refine twin_get_bind ?_
  rintro ⟨_, w⟩ ⟨s, v⟩ ⟨hs, rfl, hw⟩
  dsimp only
  rw [hw.random]
  refine twin_lift_bind fun pick _ => ?_
  obtain ⟨picked, ended, random⟩ := pick
  refine (twin_set ⟨hs, rfl, hw.withRandom random⟩).bind fun _ => ?_
  exact (timeless_report _ _ _).bind fun _ => twin_pure _

section

variable [MoveGenerator G M V α]

omit [Scalar α] in
theorem Sequence.timeless_propose (index : Nat) : Timeless Sequence.Untimed
    (Sequence.propose index : Act (Sequence G α) M α (Option (Candidate V α))) := by
  unfold Sequence.propose
  refine twin_get_bind ?_
  rintro ⟨_, w⟩ ⟨s, v⟩ ⟨hs, rfl, hw⟩
  dsimp only
  rw [hw.solution.model]
  refine twin_lift_bind fun selector _ => timeless_withRandom ?_
  -- the generator gets the selector and the stream, and the rest of the sequence stays
  exact Attempt.ensures_focus fun t ht => Attempt.ensures_of (fun _ _ _ _ _ => ht)
    fun _ _ _ _ _ => ht

theorem timeless_drawCandidate : Timeless Heuristic.Untimed
    (drawCandidate : Act (Heuristic G α) M α (Drawn V α)) := by
  have hdraw : Timeless Heuristic.Untimed
      (Heuristic.draw : Act (Heuristic G α) M α (Nat × Option (Candidate V α))) := by
    unfold Heuristic.draw Heuristic.onSequence
    refine twin_part_bind fun h _ => ?_
    refine (twin_within (Sequence.timeless_pick _) (fun _ h => h) fun _ _ _ h => h).bind
      fun index => ?_
    exact (twin_within (Sequence.timeless_propose index) (fun _ h => h) fun _ _ _ h => h).bind
      fun _ => twin_pure _
  unfold drawCandidate
  refine hdraw.bind fun drawn => ?_
  obtain ⟨index, c?⟩ := drawn
  cases c? with
  | none => exact timeless_change_bind (fun _ h => h) fun _ => twin_pure _
  | some c => exact twin_pure _

omit [MoveGenerator G M V α] in
theorem timeless_rewardMove (index : Nat) (delta : α) :
    Timeless Heuristic.Untimed (rewardMove index delta : Act (Heuristic G α) M α Unit) := by
  unfold rewardMove
  exact twin_solution_bind fun s t _ => twin_reward index delta s.time t.time

omit [Scalar α] [MoveGenerator G M V α] in
theorem timeless_reportAccept (strategy : String) (index : Nat) (delta : α)
    (more : Unit → List (String × FieldValue α)) : Timeless Heuristic.Untimed
      (reportAccept strategy index delta more : Act (Heuristic G α) M α Unit) := by
  unfold reportAccept
  exact twin_part_bind fun _ _ => timeless_report _ _ _

/-- Preparing the selectors leaves the settings as they are. -/
theorem Sequence.ensures_init (model : M) : Attempt.Ensures Sequence.Untimed
    (Sequence.init model : Attempt (Sequence G α) Unit) (fun _ => Sequence.Untimed)
    Sequence.Untimed := by
  unfold Sequence.init
  refine Attempt.Ensures.bind (Q := fun _ => Sequence.Untimed) ?_ fun _ =>
    Attempt.ensures_modify fun _ h => h
  exact Attempt.ensures_focus fun _ h => Attempt.ensures_of (fun _ _ _ _ _ => h)
    fun _ _ _ _ _ => h

theorem Heuristic.ensures_initSequence (model : M) : Attempt.Ensures Heuristic.Untimed
    (Attempt.focus (·.sequence) (fun h sequence => { h with sequence }) (Sequence.init model) :
      Attempt (Heuristic G α) Unit)
    (fun _ => Heuristic.Untimed) Heuristic.Untimed :=
  Attempt.ensures_focus fun _ h =>
    (Sequence.ensures_init model).mono_pre fun _ hs => hs ▸ h

theorem Heuristic.timeless_init (model : M) : Timeless Heuristic.Untimed
    (onPart (Heuristic.init model) : Act (Heuristic G α) M α Unit) := by
  refine timeless_onPart ?_
  unfold Heuristic.init
  exact (Heuristic.ensures_initSequence model).bind fun _ => Attempt.ensures_modify fun _ h => h

end

/-! ## Schedules and construction -/

/-- Any part will do. -/
abbrev Act.Any : S → Prop :=
  fun _ => True

theorem DelugeSchedule.timeless_step (reference : α) :
    Timeless Any (DelugeSchedule.step reference : Act (DelugeSchedule α) M α Bool) := by
  unfold DelugeSchedule.step
  refine twin_part_bind fun s _ => ?_
  refine timeless_change_bind (fun _ _ => trivial) fun _ => ?_
  exact twin_when (timeless_report _ _ _) fun _ => twin_pure _

namespace AnnealingSchedule

theorem timeless_start (domainSize : Nat) :
    Timeless Any (start domainSize : Act (AnnealingSchedule α) M α Unit) := by
  unfold start
  refine timeless_change_bind (fun _ _ => trivial) fun _ => ?_
  exact twin_part_bind fun _ _ => timeless_report _ _ _

omit [Scalar α] in
theorem timeless_reportPeriod (name : String) (stats : AcceptStats) :
    Timeless Any (reportPeriod name stats : Act (AnnealingSchedule α) M α Unit) := by
  unfold reportPeriod
  exact twin_part_bind fun _ _ => timeless_report _ _ _

variable [Model M V α]

/-- Going back to the best state takes the time back, too, in each run to its own. -/
theorem timeless_step :
    Timeless Any (step : Act (AnnealingSchedule α) M α AnnealingTurn) := by
  unfold step
  refine twin_part_bind fun before _ => ?_
  dsimp only
  refine timeless_change_bind (fun _ _ => trivial) fun _ => ?_
  have hreports (turn : AnnealingTurn) : Timeless Any
      (if turn.reheated then reportPeriod "reheat" before.stats >>= fun _ =>
        if turn.cooled then reportPeriod "cool" before.stats >>= fun _ => pure turn else pure turn
      else if turn.cooled then reportPeriod "cool" before.stats >>= fun _ => pure turn
      else pure turn : Act (AnnealingSchedule α) M α AnnealingTurn) :=
    twin_when (timeless_reportPeriod _ _) fun _ =>
      twin_when (timeless_reportPeriod _ _) fun _ => twin_pure _
  have hrestore : Timeless Any
      (onWorld (modify World.restoreBest) : Act (AnnealingSchedule α) M α _) :=
    twin_onWorld (twin_modify fun _ _ h => h.restoreBest)
  refine twin_ite (hrestore.bind fun _ => (timeless_report _ _ _).bind fun _ => ?_) ?_
  · exact hreports _
  · exact hreports _

end AnnealingSchedule

omit [Scalar α] in
theorem Construction.timeless_drawBelow {F : S → Prop} (n : Nat) :
    Timeless F (Construction.drawBelow n : Act S M α Nat) := by
  unfold Construction.drawBelow
  refine twin_onWorld (Attempt.twin_focus (Q := (· = ·)) (fun _ _ h => h.random.symm) ?_ ?_)
  · rintro _ _ random _ h rfl
    exact h.withRandom random
  · rintro random _ rfl
    cases draw n random with
    | ok a random => exact .ok a rfl
    | error e random => exact .error e rfl

variable [Model M V α]

variable (M) in
/-- Preparing for a search and looking for a proposal do the same whatever the times are, and keep a
property of the strategy, as do the two other operations. -/
structure Strategy.Timeless [Strategy S M V α] (F : S → Prop) : Prop where
  init : Act.Timeless F (Strategy.init : Act S M α Unit)
  select : Act.Timeless F (Strategy.select : Act S M α (Option (Proposal V α)))
  bestSaved : ∀ s, F s → F (Strategy.bestSaved M s)
  resetScores : ∀ s, F s → F (Strategy.resetScores M s)

theorem Construction.timeless_select :
    Timeless Any (Construction.select : Act (Construction α) M α (Option (Proposal V α))) := by
  unfold Construction.select
  refine twin_solution_bind fun s t h => ?_
  rw [h.model]
  refine twin_lift_bind fun openVariables _ => ?_
  refine twin_ite (twin_pure _) ?_
  refine (Construction.timeless_drawBelow _).bind fun n => twin_lift_bind fun v _ => ?_
  refine twin_lift_bind fun values _ => twin_part_bind fun c _ => ?_
  refine twin_lift_bind fun best? _ => ?_
  cases best? with
  | none => exact twin_pure _
  | some best =>
    refine (Construction.timeless_drawBelow _).bind fun n => twin_lift_bind fun choice _ => ?_
    refine twin_lift_bind fun value _ => ?_
    refine timeless_change_bind (fun _ _ => trivial) fun _ => ?_
    exact (timeless_report _ _ _).bind fun _ => twin_pure _

theorem Construction.timeless : Strategy.Timeless M (Any : Construction α → Prop) where
  init := timeless_change fun _ _ => trivial
  select := Construction.timeless_select
  bestSaved _ _ := trivial
  resetScores _ _ := trivial

/-! ## Acceptance strategies -/

variable [MoveGenerator G M V α]

namespace HillClimbing

omit [Scalar α] [MoveGenerator G M V α] [Model M V α] in
theorem twin_onHeuristic {x y : Act (Heuristic G α) M α β} (h : Twin Heuristic.Untimed x y) :
    Twin (fun c : HillClimbing G α => c.heuristic.Untimed) (onHeuristic x) (onHeuristic y) :=
  twin_within h (fun _ h => h) fun _ _ _ h => h

theorem timeless : Strategy.Timeless M fun c : HillClimbing G α => c.heuristic.Untimed where
  init := by
    show Timeless _ HillClimbing.init
    unfold HillClimbing.init
    refine twin_solution_bind fun s t h => ?_
    rw [h.model]
    refine (twin_onHeuristic (Heuristic.timeless_init _)).bind fun _ => ?_
    exact timeless_change fun _ h => h
  select := by
    have hattempt : Timeless (fun c : HillClimbing G α => c.heuristic.Untimed)
        (attempt : Act (HillClimbing G α) M α _) := by
      unfold attempt
      refine timeless_change_bind (fun _ h => h) fun _ => ?_
      refine twin_part_bind fun c _ => twin_ite ?_ ?_
      · refine (timeless_report _ _ _).bind fun _ => ?_
        exact timeless_change_bind (fun _ h => h) fun _ => twin_pure _
      refine (twin_onHeuristic timeless_drawCandidate).bind fun d => ?_
      cases d with
      | yield => exact twin_pure _
      | empty => exact twin_pure _
      | candidate index c =>
        cases c with
        | lazy c => exact twin_pure _
        | eager m =>
          refine twin_ite ?_ ?_
          · refine (twin_onHeuristic ?_).bind fun _ => twin_pure _
            exact (timeless_rewardMove _ _).bind fun _ => timeless_reportAccept _ _ _ _
          · refine (twin_onHeuristic ?_).bind fun _ => twin_pure _
            exact timeless_change fun _ h => h
    show Timeless _ HillClimbing.select
    unfold HillClimbing.select
    exact twin_part_bind fun c _ => (twin_firstOf hattempt _).bind fun _ => twin_pure _
  bestSaved _ h := h
  resetScores _ h := h

end HillClimbing

namespace GreatDeluge

omit [Scalar α] [MoveGenerator G M V α] [Model M V α] in
theorem twin_onHeuristic {x y : Act (Heuristic G α) M α β} (h : Twin Heuristic.Untimed x y) :
    Twin (fun d : GreatDeluge G α => d.heuristic.Untimed) (onHeuristic x) (onHeuristic y) :=
  twin_within h (fun _ h => h) fun _ _ _ h => h

omit [Scalar α] [MoveGenerator G M V α] [Model M V α] in
theorem twin_onSchedule {x y : Act (DelugeSchedule α) M α β} (h : Twin Any x y) :
    Twin (fun d : GreatDeluge G α => d.heuristic.Untimed) (onSchedule x) (onSchedule y) :=
  twin_within h (fun _ _ => trivial) fun _ _ h _ => h

theorem timeless_draw : Timeless (fun d : GreatDeluge G α => d.heuristic.Untimed)
    (draw : Act (GreatDeluge G α) M α (Drawn V α)) := by
  unfold draw
  refine twin_solution_bind fun s t h => ?_
  rw [h.referenceValue]
  refine twin_lift_bind fun reference _ => twin_part_bind fun before _ => ?_
  refine (twin_onSchedule (DelugeSchedule.timeless_step reference)).bind fun raised => ?_
  refine twin_part_bind fun d _ => ?_
  dsimp only
  refine twin_ite (timeless_change_bind (fun _ h => h) fun _ => twin_pure _) ?_
  -- the flags and the level may be set before the draw
  refine twin_when (timeless_change fun _ h => h) fun _ => ?_
  refine twin_when (timeless_change fun _ h => h) fun _ => ?_
  refine (twin_onHeuristic timeless_drawCandidate).bind fun drawn => ?_
  cases drawn with
  | yield => exact twin_pure _
  | empty => exact twin_pure _
  | candidate index c =>
    exact timeless_change_bind (fun _ h => h) fun _ => twin_pure _

theorem timeless : Strategy.Timeless M fun d : GreatDeluge G α => d.heuristic.Untimed where
  init := by
    show Timeless _ GreatDeluge.init
    unfold GreatDeluge.init
    refine twin_solution_bind fun s t h => ?_
    rw [h.model]
    refine (twin_onHeuristic (Heuristic.timeless_init _)).bind fun _ => ?_
    exact timeless_change fun _ h => h
  select := by
    have hoffer (index : Nat) (m : Move V α) :
        Timeless (fun d : GreatDeluge G α => d.heuristic.Untimed) (do
          let bound := (← Act.part).schedule.bound
          onHeuristic (reportAccept "great_deluge" index m.delta fun _ => [
            ("bound", .outlined (Outline.optional Scalar.outline bound))])
          return some (some (.move m)) :
            Act (GreatDeluge G α) M α (Option (Option (Proposal V α)))) :=
      twin_part_bind fun _ _ => (twin_onHeuristic (timeless_reportAccept _ _ _ _)).bind fun _ =>
        twin_pure _
    have hattempt : Timeless (fun d : GreatDeluge G α => d.heuristic.Untimed)
        (attempt : Act (GreatDeluge G α) M α _) := by
      unfold attempt
      refine timeless_draw.bind fun d => ?_
      cases d with
      | yield => exact twin_pure _
      | empty => exact twin_pure _
      | candidate index c =>
        cases c with
        | lazy c => exact twin_part_bind fun _ _ => twin_pure _
        | eager m =>
          refine twin_solution_bind fun s t h => ?_
          rw [h.model]
          refine twin_lift_bind fun total _ => twin_part_bind fun d _ => ?_
          refine twin_ite (twin_ite ?_ ?_) ?_
          · refine timeless_change_bind (fun d h => ?_) fun _ => ?_
            · split
              · exact h
              · exact h
            · exact (twin_onHeuristic (timeless_rewardMove _ _)).bind fun _ => hoffer index m
          · exact Attempt.Twin.bind (twin_onHeuristic (timeless_change fun _ h => h)) fun _ =>
              hoffer index m
          · exact Attempt.Twin.bind (twin_onHeuristic (timeless_change fun _ h => h)) fun _ =>
              twin_pure _
    show Timeless _ GreatDeluge.select
    unfold GreatDeluge.select
    refine (twin_firstOf hattempt _).bind fun answer? => ?_
    cases answer? with
    | some answer => exact twin_pure _
    | none => exact twin_part_bind fun d _ => (timeless_report _ _ _).bind fun _ => twin_pure _
  bestSaved _ h := h
  resetScores _ h := h

end GreatDeluge

namespace SimulatedAnnealing

omit [Scalar α] [MoveGenerator G M V α] [Model M V α] in
theorem twin_onHeuristic {x y : Act (Heuristic G α) M α β} (h : Twin Heuristic.Untimed x y) :
    Twin (fun a : SimulatedAnnealing G α => a.heuristic.Untimed) (onHeuristic x) (onHeuristic y) :=
  twin_within h (fun _ h => h) fun _ _ _ h => h

omit [Scalar α] [MoveGenerator G M V α] [Model M V α] in
theorem twin_onSchedule {x y : Act (AnnealingSchedule α) M α β} (h : Twin Any x y) :
    Twin (fun a : SimulatedAnnealing G α => a.heuristic.Untimed) (onSchedule x) (onSchedule y) :=
  twin_within h (fun _ _ => trivial) fun _ _ h _ => h

omit [MoveGenerator G M V α] [Model M V α] in
theorem timeless_accept (total reference delta : α) :
    Timeless (fun a : SimulatedAnnealing G α => a.heuristic.Untimed)
      (accept total reference delta : Act (SimulatedAnnealing G α) M α Bool) := by
  unfold accept
  refine twin_get_bind ?_
  rintro ⟨_, w⟩ ⟨a, v⟩ ⟨ha, rfl, hw⟩
  dsimp only
  rw [hw.random]
  exact (twin_set ⟨ha, rfl, hw.withRandom _⟩).bind fun _ => twin_pure _

theorem timeless_draw : Timeless (fun a : SimulatedAnnealing G α => a.heuristic.Untimed)
    (draw : Act (SimulatedAnnealing G α) M α (Drawn V α)) := by
  unfold draw
  refine (twin_onSchedule AnnealingSchedule.timeless_step).bind fun turn => ?_
  refine twin_part_bind fun a _ => ?_
  refine twin_ite (timeless_change_bind (fun _ h => h) fun _ => twin_pure _) ?_
  dsimp only
  refine twin_when (timeless_change fun _ h => h) fun _ => ?_
  refine (twin_onHeuristic timeless_drawCandidate).bind fun drawn => ?_
  cases drawn with
  | yield => exact twin_pure _
  | empty => exact twin_pure _
  | candidate index c =>
    exact timeless_change_bind (fun _ h => h) fun _ => twin_pure _

theorem timeless : Strategy.Timeless M fun a : SimulatedAnnealing G α => a.heuristic.Untimed where
  init := by
    show Timeless _ SimulatedAnnealing.init
    unfold SimulatedAnnealing.init
    refine twin_solution_bind fun s t h => ?_
    rw [h.model]
    refine (twin_onHeuristic (timeless_onPart (Heuristic.ensures_initSequence _))).bind fun _ => ?_
    refine twin_lift_bind fun size _ => ?_
    refine (twin_onSchedule (AnnealingSchedule.timeless_start size)).bind fun _ => ?_
    exact timeless_change fun _ h => h
  select := by
    have hoffer (index : Nat) (m : Move V α) :
        Timeless (fun a : SimulatedAnnealing G α => a.heuristic.Untimed) (do
          let temperature := (← Act.part).schedule.temperature
          onHeuristic (reportAccept "simulated_annealing" index m.delta fun _ => [
            ("temperature", .number temperature)])
          return some (some (.move m)) :
            Act (SimulatedAnnealing G α) M α (Option (Option (Proposal V α)))) :=
      twin_part_bind fun _ _ => (twin_onHeuristic (timeless_reportAccept _ _ _ _)).bind fun _ =>
        twin_pure _
    have hattempt : Timeless (fun a : SimulatedAnnealing G α => a.heuristic.Untimed)
        (attempt : Act (SimulatedAnnealing G α) M α _) := by
      unfold attempt
      refine timeless_draw.bind fun d => ?_
      cases d with
      | yield => exact twin_pure _
      | empty => exact twin_pure _
      | candidate index c =>
        refine twin_solution_bind fun s t h => ?_
        rw [h.referenceValue]
        refine twin_lift_bind fun reference _ => ?_
        cases c with
        | lazy c =>
          refine (twin_onWorld (twin_modifyGet fun w v h => ?_)).bind fun seed =>
            twin_part_bind fun _ _ => twin_pure _
          -- both runs get the same seed
          dsimp only
          rw [h.random]
          exact ⟨rfl, h.withRandom _⟩
        | eager m =>
          refine twin_solution_bind fun s t h => ?_
          rw [h.model]
          refine twin_lift_bind fun total _ => ?_
          refine (timeless_accept _ _ _).bind fun accepted => twin_ite (twin_ite ?_ ?_) ?_
          · exact (twin_onHeuristic (timeless_rewardMove _ _)).bind fun _ => hoffer index m
          · exact Attempt.Twin.bind (twin_onHeuristic (timeless_change fun _ h => h)) fun _ =>
              hoffer index m
          · exact Attempt.Twin.bind (twin_onHeuristic (timeless_change fun _ h => h)) fun _ =>
              twin_pure _
    show Timeless _ SimulatedAnnealing.select
    unfold SimulatedAnnealing.select
    refine (twin_firstOf hattempt _).bind fun answer? => ?_
    cases answer? with
    | some answer => exact twin_pure _
    | none => exact twin_part_bind fun d _ => (timeless_report _ _ _).bind fun _ => twin_pure _
  bestSaved _ h := h
  resetScores _ h := h

end SimulatedAnnealing

/-! ## Group acceptance -/

namespace Group

omit [Scalar α] [MoveGenerator G M V α] [Model M V α] in
theorem twin_onHeuristic {x y : Act (Heuristic G α) M α β} (h : Twin Heuristic.Untimed x y) :
    Twin (fun g : Group G α => g.heuristic.Untimed) (onHeuristic x) (onHeuristic y) :=
  twin_within h (fun _ h => h) fun _ _ _ h => h

omit [Scalar α] [MoveGenerator G M V α] [Model M V α] in
theorem twin_onConstruction {x y : Act (Construction α) M α β} (h : Twin Any x y) :
    Twin (fun g : Group G α => g.heuristic.Untimed) (onConstruction x) (onConstruction y) :=
  twin_within h (fun _ _ => trivial) fun _ _ h _ => h

omit [Scalar α] [MoveGenerator G M V α] [Model M V α] in
theorem twin_onAnnealing {s : AnnealingSchedule α} {x y : Act (AnnealingSchedule α) M α β}
    (h : Twin Any x y) :
    Twin (fun g : Group G α => g.heuristic.Untimed) (onAnnealing s x) (onAnnealing s y) :=
  twin_within h (fun _ _ => trivial) fun _ _ h _ => h

omit [MoveGenerator G M V α] [Model M V α] in
theorem timeless_advanceDeluge (reference : α) :
    Timeless (fun g : Group G α => g.heuristic.Untimed)
      (advanceDeluge reference : Act (Group G α) M α Unit) := by
  unfold advanceDeluge
  refine Attempt.Twin.bind (twin_within (DelugeSchedule.timeless_step reference)
    (fun _ _ => trivial) fun _ _ h _ => h) fun _ => twin_pure _

omit [MoveGenerator G M V α] in
theorem timeless_decide (index : Nat) (delta reference : α) :
    Timeless (fun g : Group G α => g.heuristic.Untimed)
      (decide index delta reference : Act (Group G α) M α Decision) := by
  have hdeluge (total : α) : Timeless (fun g : Group G α => g.heuristic.Untimed)
      (decideByDeluge index delta total reference : Act (Group G α) M α Bool) := by
    unfold decideByDeluge
    refine twin_part_bind fun g _ => twin_ite (twin_pure _) (twin_ite ?_ ?_)
    · -- the move counts one, whenever it is made
      refine twin_solution_bind fun s t _ => ?_
      refine (twin_onHeuristic (twin_onPart_update (fun h _ => ?_) fun h h' hh hrun => ?_)).bind
        fun _ => (timeless_advanceDeluge reference).bind fun _ => twin_pure _
      · exact Heuristic.improve_of_ne (by decide) h index delta t.time s.time
      · exact hh.improve hrun
    · exact (timeless_advanceDeluge reference).bind fun _ => twin_pure _
  have hvote (s : AnnealingSchedule α) (total : α) :
      Timeless (fun g : Group G α => g.heuristic.Untimed)
        (decideByVote s delta total reference : Act (Group G α) M α Decision) := by
    unfold decideByVote
    refine twin_get_bind ?_
    rintro ⟨_, w⟩ ⟨g, v⟩ ⟨hg, rfl, hw⟩
    dsimp only
    rw [hw.random]
    refine (twin_set ⟨hg, rfl, hw.withRandom _⟩).bind fun _ => twin_ite (twin_pure _) ?_
    refine (twin_onAnnealing AnnealingSchedule.timeless_step).bind fun turn => ?_
    refine (timeless_advanceDeluge reference).bind fun _ => twin_ite (twin_pure _) ?_
    exact timeless_change_bind (fun _ h => h) fun _ => twin_pure _
  unfold decide
  refine twin_solution_bind fun s t h => ?_
  rw [h.model]
  refine twin_lift_bind fun total _ => twin_part_bind fun g _ => ?_
  split
  · exact hvote _ total
  · exact (hdeluge total).bind fun _ => twin_pure _

theorem timeless_selectByVote : Timeless (fun g : Group G α => g.heuristic.Untimed)
    (selectByVote : Act (Group G α) M α (Option (Proposal V α))) := by
  have hcriterion (reference : α) : Timeless (fun g : Group G α => g.heuristic.Untimed)
      (criterion reference : Act (Group G α) M α (Criterion α)) := by
    unfold criterion
    refine twin_get_bind ?_
    rintro ⟨_, w⟩ ⟨g, v⟩ ⟨hg, rfl, hw⟩
    dsimp only
    rw [hw.random]
    exact (twin_set ⟨hg, rfl, hw.withRandom _⟩).bind fun _ => twin_pure _
  have hattempt (reference : α) : Timeless (fun g : Group G α => g.heuristic.Untimed)
      (attempt reference : Act (Group G α) M α _) := by
    unfold attempt
    refine (twin_onHeuristic timeless_drawCandidate).bind fun d => ?_
    cases d with
    | yield => exact twin_pure _
    | empty => exact twin_pure _
    | candidate index c =>
      cases c with
      | lazy c => exact (hcriterion reference).bind fun _ => twin_pure _
      | eager m =>
        refine (timeless_decide _ _ _).bind fun decision => ?_
        cases decision with
        | dropped => exact twin_pure _
        | refused =>
          exact Attempt.Twin.bind (twin_onHeuristic (timeless_change fun _ h => h)) fun _ =>
            twin_pure _
        | accepted =>
          exact (twin_onHeuristic (timeless_reportAccept _ _ _ _)).bind fun _ => twin_pure _
  unfold selectByVote
  refine twin_solution_bind fun s t h => ?_
  rw [h.referenceValue]
  refine twin_lift_bind fun reference _ => twin_part_bind fun g _ => ?_
  dsimp only
  exact twin_when (timeless_advanceDeluge reference) fun _ => twin_firstOf (hattempt reference) _

theorem timeless : Strategy.Timeless M fun g : Group G α => g.heuristic.Untimed where
  init := by
    show Timeless _ Group.init
    unfold Group.init
    refine (twin_onConstruction Construction.timeless.init).bind fun _ => ?_
    refine twin_solution_bind fun s t h => ?_
    rw [h.model]
    refine (twin_onHeuristic (Heuristic.timeless_init _)).bind fun _ => ?_
    refine timeless_change_bind (fun _ h => h) fun _ => ?_
    refine twin_part_bind fun g _ => ?_
    split
    · exact twin_lift_bind fun size _ => twin_onAnnealing (AnnealingSchedule.timeless_start size)
    · exact twin_pure _
  select := by
    show Timeless _ Group.select
    unfold Group.select
    refine twin_part_bind fun g _ => twin_ite timeless_selectByVote ?_
    refine (twin_onConstruction Construction.timeless_select).bind fun p? => ?_
    cases p? with
    | some p => exact twin_pure _
    | none =>
      refine timeless_change_bind (fun _ h => h) fun _ => ?_
      refine twin_solution_bind fun s t h => ?_
      dsimp only
      rw [h.iteration]
      exact (timeless_report _ _ _).bind fun _ => timeless_selectByVote
  bestSaved _ h := h
  resetScores _ h := h

end Group

/-! ## Orchestrators -/

namespace Orchestrator

/-- All stages have a property. -/
def Stages (F : S → Prop) (o : Orchestrator S α) : Prop :=
  ∀ stage ∈ o.stages, F stage.strategy

variable {F : S → Prop}

omit [Scalar α] [MoveGenerator G M V α] [Model M V α] in
theorem twin_onConstruction {x y : Act (Construction α) M α β} (h : Twin Any x y) :
    Twin (Stages F) (onConstruction x) (onConstruction y) :=
  twin_within h (fun _ _ => trivial) fun _ _ h _ => h

omit [Scalar α] [MoveGenerator G M V α] in
theorem timeless_switchTo (phase : Phase) :
    Timeless (Stages F) (switchTo phase : Act (Orchestrator S α) M α Unit) := by
  unfold switchTo
  refine twin_get_bind ?_
  rintro ⟨_, w⟩ ⟨o, v⟩ ⟨ho, rfl, hw⟩
  dsimp only
  rw [hw.solution.model, hw.solution.iteration, hw.journal.keeps]
  refine twin_lift_bind fun fields _ => (timeless_report _ _ _).bind fun _ => ?_
  exact timeless_change fun _ h => h

omit [Scalar α] [MoveGenerator G M V α] in
theorem timeless_enterStage (index : Nat) :
    Timeless (Stages F) (enterStage index : Act (Orchestrator S α) M α Unit) := by
  unfold enterStage
  refine timeless_change_bind (fun _ h => h) fun _ => ?_
  exact twin_part_bind fun o _ => twin_lift_bind fun stage _ => timeless_switchTo _

variable [Strategy S M V α]

omit [Scalar α] [MoveGenerator G M V α] in
/-- What is done to the strategy of a stage. -/
theorem twin_onStage {o : Orchestrator S α} {index : Nat} {stage : Stage S} (ho : o.Stages F)
    (hstage : fetch o.stages index = .ok stage) {x : Act S M α β} (h : Timeless F x) :
    Timeless (Stages F) (Act.within (fun _ => stage.strategy)
      (fun o strategy => { o with stages := o.stages.set index { stage with strategy } }) x :
        Act (Orchestrator S α) M α β) := by
  refine twin_within h (fun _ _ => ?_) fun o' strategy ho' hstrategy s hs => ?_
  · exact ho stage (List.mem_of_getElem? (fetch_eq_ok_iff.1 hstage))
  · rcases List.mem_or_eq_of_mem_set hs with hs | rfl
    · exact ho' s hs
    · exact hstrategy

omit [Scalar α] [MoveGenerator G M V α] in
theorem timeless_restart (hF : ∀ s, F s → F (Strategy.resetScores M s)) :
    Timeless (Stages F) (restart M (V := V) : Act (Orchestrator S α) M α Unit) := by
  unfold restart unassignAll
  refine Attempt.Twin.bind (twin_solution_bind fun s t h => ?_) fun _ => ?_
  · dsimp only
    rw [h.model]
    exact twin_onWorld (World.twin_onModel _)
  refine timeless_change_bind (fun o ho stage hstage => ?_) fun _ => ?_
  · obtain ⟨stage', hmem, rfl⟩ := List.mem_map.1 hstage
    exact hF _ (ho stage' hmem)
  refine twin_part_bind fun o _ => twin_solution_bind fun s t h => ?_
  dsimp only
  rw [h.iteration]
  exact timeless_report _ _ _

omit [MoveGenerator G M V α] in
/-- A step is timeless if the stages are. -/
theorem timeless_phaseStep (hS : Strategy.Timeless M F) (exhausted : Nat) :
    Timeless (Stages F) (phaseStep exhausted : Act (Orchestrator S α) M α
      (Except Nat (Option (Proposal V α)))) := by
  have hask (index : Nat) : Timeless (Stages F)
      (ask index : Act (Orchestrator S α) M α (Option (Proposal V α))) := by
    unfold ask
    exact twin_part_bind fun o ho => twin_lift_bind fun stage hstage =>
      twin_onStage ho hstage hS.select
  unfold phaseStep
  refine twin_part_bind fun o _ => ?_
  split
  · refine (twin_onConstruction Construction.timeless_select).bind fun p? => ?_
    refine twin_get_bind ?_
    rintro ⟨_, w⟩ ⟨o, v⟩ ⟨ho, rfl, hw⟩
    dsimp only
    rw [hw.solution.model]
    have hobserved : (o.observe (Model.unassignedCount w.solution.model)).1.Stages F := by
      unfold Stages
      rw [observe_stages]
      exact ho
    refine (twin_set ⟨hobserved, rfl, hw⟩).bind fun _ => ?_
    refine twin_ite ((timeless_switchTo _).bind fun _ => twin_pure _) (twin_ite (twin_pure _) ?_)
    exact (timeless_enterStage _).bind fun _ => twin_pure _
  · refine (timeless_restart hS.resetScores).bind fun _ => ?_
    exact (timeless_switchTo _).bind fun _ => twin_pure _
  · refine twin_part_bind fun o _ => (hask _).bind fun p? => ?_
    cases p? with
    | some p => exact twin_pure _
    | none =>
      refine twin_part_bind fun o _ => (timeless_enterStage _).bind fun _ => ?_
      exact twin_ite (twin_pure _) (twin_pure _)

omit [MoveGenerator G M V α] in
theorem timeless (hS : Strategy.Timeless M F) :
    Strategy.Timeless M (Stages F : Orchestrator S α → Prop) where
  init := by
    have hstage (index : Nat) : Timeless (Stages F)
        (initStage index : Act (Orchestrator S α) M α Unit) := by
      unfold initStage
      exact twin_part_bind fun o ho => twin_lift_bind fun stage hstage =>
        twin_onStage ho hstage hS.init
    show Timeless _ Orchestrator.init
    unfold Orchestrator.init
    refine (twin_onConstruction Construction.timeless.init).bind fun _ => ?_
    refine twin_part_bind fun o _ => (twin_forM _ hstage).bind fun _ => ?_
    exact timeless_change fun _ h => h
  select := by
    have hsteps (fuel exhausted : Nat) : Timeless (Stages F)
        (steps exhausted fuel : Act (Orchestrator S α) M α (Option (Proposal V α))) := by
      -- by induction on the number of steps that a call may take
      induction fuel generalizing exhausted with
      | zero => exact twin_throw _
      | succ fuel ih =>
        unfold steps
        refine (timeless_phaseStep hS exhausted).bind fun r => ?_
        cases r with
        | ok p? => exact twin_pure _
        | error exhausted => exact ih exhausted
    show Timeless _ Orchestrator.select
    unfold Orchestrator.select
    exact twin_part_bind fun o _ => hsteps _ _
  bestSaved o ho stage hstage := by
    obtain ⟨stage', hmem, rfl⟩ := List.mem_map.1 hstage
    exact hS.bestSaved _ (ho stage' hmem)
  resetScores o ho stage hstage := by
    obtain ⟨stage', hmem, rfl⟩ := List.mem_map.1 hstage
    exact hS.resetScores _ (ho stage' hmem)

end Orchestrator

/-! ## All strategies -/

omit [Scalar α] [Model M V α] [MoveGenerator G M V α] in
/-- The heuristic of the strategy, if it has one, is untimed. -/
def BasicStrategy.Untimed : BasicStrategy G α → Prop
  | hillClimbing s => s.heuristic.Untimed
  | greatDeluge s => s.heuristic.Untimed
  | simulatedAnnealing s => s.heuristic.Untimed
  | group s => s.heuristic.Untimed
  | construction _ => True

theorem BasicStrategy.timeless :
    Strategy.Timeless M (BasicStrategy.Untimed : BasicStrategy G α → Prop) where
  init := by
    show Timeless _ BasicStrategy.init
    unfold BasicStrategy.init
    refine twin_part_bind fun s hs => ?_
    cases s with
    | hillClimbing s =>
      exact twin_within HillClimbing.timeless.init (fun _ _ => hs) fun _ _ _ h => h
    | greatDeluge s => exact twin_within GreatDeluge.timeless.init (fun _ _ => hs) fun _ _ _ h => h
    | simulatedAnnealing s =>
      exact twin_within SimulatedAnnealing.timeless.init (fun _ _ => hs) fun _ _ _ h => h
    | group s => exact twin_within Group.timeless.init (fun _ _ => hs) fun _ _ _ h => h
    | construction s =>
      exact twin_within Construction.timeless.init (fun _ _ => trivial) fun _ _ _ h => h
  select := by
    show Timeless _ BasicStrategy.select
    unfold BasicStrategy.select
    refine twin_part_bind fun s hs => ?_
    cases s with
    | hillClimbing s =>
      exact twin_within HillClimbing.timeless.select (fun _ _ => hs) fun _ _ _ h => h
    | greatDeluge s =>
      exact twin_within GreatDeluge.timeless.select (fun _ _ => hs) fun _ _ _ h => h
    | simulatedAnnealing s =>
      exact twin_within SimulatedAnnealing.timeless.select (fun _ _ => hs) fun _ _ _ h => h
    | group s => exact twin_within Group.timeless.select (fun _ _ => hs) fun _ _ _ h => h
    | construction s =>
      exact twin_within Construction.timeless.select (fun _ _ => trivial) fun _ _ _ h => h
  bestSaved s hs := by
    cases s with
    | construction s => trivial
    | _ => exact hs
  resetScores s hs := by
    cases s with
    | construction s => trivial
    | _ => exact hs

/-- All heuristics of the strategy are untimed. -/
def AnyStrategy.Untimed : AnyStrategy G α → Prop
  | basic s => s.Untimed
  | orchestrator s => s.Stages BasicStrategy.Untimed

/-- Preparing any strategy and asking it for a proposal do the same whatever the times are. -/
theorem AnyStrategy.timeless :
    Strategy.Timeless M (AnyStrategy.Untimed : AnyStrategy G α → Prop) where
  init := by
    show Timeless _ AnyStrategy.init
    unfold AnyStrategy.init
    refine twin_part_bind fun s hs => ?_
    cases s with
    | basic s => exact twin_within BasicStrategy.timeless.init (fun _ _ => hs) fun _ _ _ h => h
    | orchestrator s =>
      exact twin_within (Orchestrator.timeless BasicStrategy.timeless).init (fun _ _ => hs)
        fun _ _ _ h => h
  select := by
    show Timeless _ AnyStrategy.select
    unfold AnyStrategy.select
    refine twin_part_bind fun s hs => ?_
    cases s with
    | basic s => exact twin_within BasicStrategy.timeless.select (fun _ _ => hs) fun _ _ _ h => h
    | orchestrator s =>
      exact twin_within (Orchestrator.timeless BasicStrategy.timeless).select (fun _ _ => hs)
        fun _ _ _ h => h
  bestSaved s hs := by
    cases s with
    | basic s => exact BasicStrategy.timeless.bestSaved (M := M) s hs
    | orchestrator s =>
      exact (Orchestrator.timeless (M := M) BasicStrategy.timeless).bestSaved s hs
  resetScores s hs := by
    cases s with
    | basic s => exact BasicStrategy.timeless.resetScores (M := M) s hs
    | orchestrator s =>
      exact (Orchestrator.timeless (M := M) BasicStrategy.timeless).resetScores s hs

end LocalSearch
