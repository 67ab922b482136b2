import LocalSearch.Proofs.Selection.Kinds
/-!
# Selections are discreet

A strategy that goes back to the best state tells the listeners of the solution. Nothing else that a
strategy does is heard by anybody, and the observers of the search hear nothing at all.

* `World.course`: what everybody but the listeners of the solution was told.
* `Call`, `World.heard`: what the hooks and the extensions are told of the course of a search.
* `Act.Discreet`: only listeners of the solution are told anything. Its rules are simp lemmas.
* `AnyStrategy.discreet`: preparing a strategy and asking it for a proposal are discreet.
-/

namespace LocalSearch

open Act
open Attempt (fixes_bind fixes_firstOf fixes_forM fixes_get_bind fixes_ite fixes_when)

/-! ## What is heard -/

/-- The observers that are told of the course of a search. -/
inductive Audience
  | hooks
  | extensions
deriving Repr, DecidableEq

/-- What an observer is told of the course of a search, apart from the iteration and the wording of
a failure. -/
inductive Call (α : Type)
  | started
  /-- A proposal was committed and changed the total by `delta`. -/
  | assigned (delta : α)
  | stopped
  | finished
  | failed
  /-- The search has ended without a failure. -/
  | done
deriving Repr, DecidableEq

variable {α : Type}

/-- The call behind a notice and who got it, if it was for an audience and about the course of the
search. -/
def Notice.call? : Audience → Notice α → Option (String × Call α)
  | .hooks, started name _ => some (name, .started)
  | .hooks, assigned name delta _ => some (name, .assigned delta)
  | .hooks, stopped name _ => some (name, .stopped)
  | .hooks, finished name _ => some (name, .finished)
  | .hooks, failed name _ _ => some (name, .failed)
  | .extensions, extensionAssigned name delta => some (name, .assigned delta)
  | .extensions, extensionDone name => some (name, .done)
  | _, _ => none

/-- Whether a notice is one of a solution to its listeners. -/
def Notice.ofSolution : Notice α → Bool
  | updated _ _ | saved _ _ | restored _ _ | cleared _ _ => true
  | _ => false

variable {S T M V G β γ : Type}

/-- What everybody but the listeners of the solution was told so far, the first notice first. -/
def World.course (w : World M α) : List (Notice α) :=
  w.notices.reverse.filter (!·.ofSolution)

/-- What an audience has heard so far, the first call first. -/
def World.heard (w : World M α) (audience : Audience) : List (String × Call α) :=
  w.notices.reverse.filterMap (Notice.call? audience)

theorem World.heard_tell (w : World M α) (notices : List (Notice α)) (audience : Audience) :
    (w.tell notices).heard audience =
      w.heard audience ++ notices.filterMap (Notice.call? audience) := by
  simp [heard, tell]

/-- Nobody hears notices that are no calls. -/
theorem World.heard_tell_of_none {w : World M α} {notices : List (Notice α)}
    (h : ∀ audience, ∀ notice ∈ notices, Notice.call? audience notice = none) :
    (w.tell notices).heard = w.heard := by
  funext audience
  rw [heard_tell, List.filterMap_eq_nil_iff.2 (h audience), List.append_nil]

/-- What is heard is part of the course of the search. -/
theorem World.heard_eq (w : World M α) (audience : Audience) :
    w.heard audience = w.course.filterMap (Notice.call? audience) := by
  unfold heard course
  rw [List.filterMap_filter]
  refine congrArg (List.filterMap · _) (funext fun notice => ?_)
  cases audience <;> cases notice <;> rfl

/-- The listeners of the solution are not part of the course of the search. -/
theorem World.course_tell_of_solution {w : World M α} {notices : List (Notice α)}
    (h : ∀ notice ∈ notices, notice.ofSolution = true) : (w.tell notices).course = w.course := by
  have hnone : notices.filter (!·.ofSolution) = [] :=
    List.filter_eq_nil_iff.2 fun notice hnotice => by simp [h notice hnotice]
  simp [course, tell, hnone]

theorem Solution.ofSolution_notices {s : Solution M α} {notice : String → Nat → Notice α}
    (h : ∀ name iteration, (notice name iteration).ofSolution = true) :
    ∀ n ∈ s.notices notice, n.ofSolution = true := by
  intro n hn
  obtain ⟨listener, -, hname⟩ := List.mem_filterMap.1 hn
  obtain ⟨name, -, rfl⟩ := Option.map_eq_some_iff.1 hname
  exact h name s.iteration

/-- Listeners of the solution are no observers of the search. -/
theorem Solution.call?_notices {s : Solution M α} {notice : String → Nat → Notice α}
    (h : ∀ audience name iteration, Notice.call? audience (notice name iteration) = none) :
    ∀ audience, ∀ n ∈ s.notices notice, Notice.call? audience n = none := by
  intro audience n hn
  obtain ⟨listener, -, hname⟩ := List.mem_filterMap.1 hn
  obtain ⟨name, -, rfl⟩ := Option.map_eq_some_iff.1 hname
  exact h audience name s.iteration

theorem World.course_restoreBest [Model M V α] (w : World M α) :
    w.restoreBest.course = w.course := by
  unfold restoreBest
  cases w.solution.best with
  | none => rfl
  | some best => exact course_tell_of_solution (Solution.ofSolution_notices fun _ _ => rfl)

/-- Working on the model leaves everything but the solution alone. -/
theorem World.fixes_onModel {part : World M α → γ}
    (h : ∀ w solution, part { w with solution } = part w) (x : Attempt M β) :
    Attempt.Fixes part (onModel x) :=
  fun _ => Attempt.ensures_focus fun w hw => Attempt.ensures_of
    (fun _ _ _ _ _ => (h w _).trans hw) fun _ _ _ _ _ => (h w _).trans hw

namespace Act

/-- Nobody but the listeners of the solution is told anything. -/
abbrev Discreet (x : Act S M α β) : Prop :=
  Attempt.Fixes (fun s => s.2.course) x

/-- The observers of the search hear nothing of what is discreet. -/
theorem Discreet.heard {x : Act S M α β} (h : Discreet x) :
    Attempt.Fixes (fun s => s.2.heard) x := by
  intro c
  have hkeeps := Attempt.Fixes.ensures h fun course =>
    (fun audience => course.filterMap (Notice.call? audience)) = c
  refine hkeeps.mono (fun s hs => ?_) (fun _ s hs => ?_) fun s hs => ?_
  · exact (funext s.2.heard_eq).symm.trans hs
  · exact (funext s.2.heard_eq).trans hs
  · exact (funext s.2.heard_eq).trans hs

@[simp]
theorem discreet_part : Discreet (part : Act S M α S) :=
  fun _ _ hs => hs

@[simp]
theorem discreet_solution : Discreet (solution : Act S M α (Solution M α)) :=
  fun _ _ hs => hs

@[simp]
theorem discreet_change (f : S → S) : Discreet (change f : Act S M α Unit) :=
  Attempt.fixes_modify fun _ => rfl

@[simp]
theorem discreet_report (level : Level) (name : String)
    (fields : Unit → List (String × FieldValue α)) :
    Discreet (report level name fields : Act S M α Unit) :=
  Attempt.fixes_modify fun _ => rfl

@[simp]
theorem discreet_onPart (x : Attempt S β) : Discreet (onPart x : Act S M α β) :=
  fun _ => Attempt.ensures_focus fun _ hs => Attempt.ensures_of (fun _ _ _ _ _ => hs)
    fun _ _ _ _ _ => hs

@[simp]
theorem discreet_withRandom (x : Attempt (S × Random.Stream) β) :
    Discreet (withRandom x : Act S M α β) :=
  fun _ => Attempt.ensures_focus fun _ hs => Attempt.ensures_of (fun _ _ _ _ _ => hs)
    fun _ _ _ _ _ => hs

@[simp]
theorem discreet_within {view : S → T} {put : S → T → S} {x : Act T M α β} (h : Discreet x) :
    Discreet (within view put x : Act S M α β) := by
  intro c
  refine Attempt.ensures_focus fun s hs => ?_
  exact (h c).mono_pre fun t ht => by rw [ht]; exact hs

theorem discreet_onWorld {x : Attempt (World M α) β} (h : Attempt.Fixes World.course x) :
    Discreet (onWorld x : Act S M α β) := by
  intro c
  refine Attempt.ensures_focus fun s hs => ?_
  exact (h c).mono_pre fun t ht => by rw [ht]; exact hs

/-- An operation that goes on from a state that it sets. -/
theorem ensures_set_bind_of_discreet {s t : S × World M α} {f : PUnit → Act S M α β}
    (ht : t.2.course = s.2.course) (hf : ∀ u, Discreet (f u)) :
    Attempt.Ensures (· = s) (set t >>= f) (fun _ s' => s'.2.course = s.2.course)
      (fun s' => s'.2.course = s.2.course) :=
  Attempt.Ensures.bind (Q := fun _ s' => s'.2.course = s.2.course)
    (Attempt.ensures_set fun _ _ => ht) fun u => hf u _

end Act

/-! ## Draws -/

variable [Scalar α]

@[simp]
theorem Sequence.discreet_pick (chain : List Nat) :
    Discreet (Sequence.pick chain : Act (Sequence G α) M α Nat) := by
  unfold Sequence.pick
  refine fixes_get_bind fun s => ?_
  obtain ⟨s, w⟩ := s
  refine Attempt.ensures_lift_bind (fun _ h => by rw [h]) fun pick _ => ?_
  obtain ⟨picked, ended, random⟩ := pick
  refine ensures_set_bind_of_discreet rfl fun _ => ?_
  exact fixes_bind (by simp) fun _ => by simp

section

variable [MoveGenerator G M V α]

omit [Scalar α] in
@[simp]
theorem Sequence.discreet_propose (index : Nat) :
    Discreet (Sequence.propose index : Act (Sequence G α) M α (Option (Candidate V α))) := by
  unfold Sequence.propose
  exact fixes_bind (by simp) fun _ => fixes_bind (by simp) fun _ => by simp

@[simp]
theorem discreet_drawCandidate :
    Discreet (drawCandidate : Act (Heuristic G α) M α (Drawn V α)) := by
  have hdraw : Discreet
      (Heuristic.draw : Act (Heuristic G α) M α (Nat × Option (Candidate V α))) := by
    unfold Heuristic.draw
    refine fixes_bind (by simp) fun h => ?_
    refine fixes_bind (by simp [Heuristic.onSequence]) fun index => ?_
    exact fixes_bind (by simp [Heuristic.onSequence]) fun _ => by simp
  unfold drawCandidate
  refine fixes_bind hdraw fun drawn => ?_
  obtain ⟨index, c?⟩ := drawn
  cases c? with
  | none => exact fixes_bind (by simp) fun _ => by simp
  | some c => simp

omit [MoveGenerator G M V α] in
@[simp]
theorem discreet_rewardMove (index : Nat) (delta : α) :
    Discreet (rewardMove index delta : Act (Heuristic G α) M α Unit) := by
  simp [rewardMove]

omit [Scalar α] [MoveGenerator G M V α] in
@[simp]
theorem discreet_reportAccept (strategy : String) (index : Nat) (delta : α)
    (more : Unit → List (String × FieldValue α)) :
    Discreet (reportAccept strategy index delta more : Act (Heuristic G α) M α Unit) := by
  simp [reportAccept]

end

/-! ## Schedules and construction -/

@[simp]
theorem DelugeSchedule.discreet_step (reference : α) :
    Discreet (DelugeSchedule.step reference : Act (DelugeSchedule α) M α Bool) := by
  unfold DelugeSchedule.step
  refine fixes_bind (by simp) fun s => ?_
  refine fixes_bind (by simp) fun _ => ?_
  exact fixes_ite (by simp) (by simp)

namespace AnnealingSchedule

@[simp]
theorem discreet_start (domainSize : Nat) :
    Discreet (start domainSize : Act (AnnealingSchedule α) M α Unit) := by
  simp [start]

omit [Scalar α] in
@[simp]
theorem discreet_reportPeriod (name : String) (stats : AcceptStats) :
    Discreet (reportPeriod name stats : Act (AnnealingSchedule α) M α Unit) := by
  simp [reportPeriod]

variable [Model M V α]

@[simp]
theorem discreet_step : Discreet (step : Act (AnnealingSchedule α) M α AnnealingTurn) := by
  have hrestore : Discreet (onWorld (modify World.restoreBest) : Act (AnnealingSchedule α) M α _) :=
    discreet_onWorld (Attempt.fixes_modify World.course_restoreBest)
  unfold step
  refine fixes_bind (by simp) fun before => ?_
  dsimp only
  refine fixes_bind (by simp) fun _ => ?_
  have hreports (turn : AnnealingTurn) : Discreet
      (if turn.reheated then reportPeriod "reheat" before.stats >>= fun _ =>
        if turn.cooled then reportPeriod "cool" before.stats >>= fun _ => pure turn else pure turn
      else if turn.cooled then reportPeriod "cool" before.stats >>= fun _ => pure turn
      else pure turn : Act (AnnealingSchedule α) M α AnnealingTurn) :=
    fixes_when (by simp) fun _ => fixes_when (by simp) fun _ => by simp
  refine fixes_ite (fixes_bind hrestore fun _ => fixes_bind (by simp) fun _ => ?_) ?_
  · exact hreports _
  · exact hreports _

end AnnealingSchedule

omit [Scalar α] in
@[simp]
theorem Construction.discreet_drawBelow (n : Nat) :
    Discreet (Construction.drawBelow n : Act S M α Nat) :=
  discreet_onWorld fun _ => Attempt.ensures_focus fun _ hw => Attempt.ensures_of
    (fun _ _ _ _ _ => hw) fun _ _ _ _ _ => hw

variable [Model M V α]

variable (S M) in
/-- Preparing for a search and looking for a proposal are discreet. -/
structure Strategy.Discreet [Strategy S M V α] : Prop where
  init : Act.Discreet (Strategy.init : Act S M α Unit)
  select : Act.Discreet (Strategy.select : Act S M α (Option (Proposal V α)))

theorem Construction.discreet_select :
    Discreet (Construction.select : Act (Construction α) M α (Option (Proposal V α))) := by
  unfold Construction.select
  refine fixes_bind (by simp) fun s => ?_
  refine fixes_bind (by simp) fun openVariables => ?_
  refine fixes_ite (by simp) ?_
  refine fixes_bind (by simp) fun n => fixes_bind (by simp) fun v => ?_
  refine fixes_bind (by simp) fun values => fixes_bind (by simp) fun c => ?_
  refine fixes_bind (by simp) fun best? => ?_
  cases best? with
  | none => simp
  | some best =>
    refine fixes_bind (by simp) fun n => fixes_bind (by simp) fun choice => ?_
    refine fixes_bind (by simp) fun value => ?_
    exact fixes_bind (by simp) fun _ => fixes_bind (by simp) fun _ => by simp

theorem Construction.discreet : Strategy.Discreet (Construction α) M where
  init := discreet_change _
  select := Construction.discreet_select

/-! ## Acceptance strategies -/

variable [MoveGenerator G M V α]

namespace HillClimbing

theorem discreet : Strategy.Discreet (HillClimbing G α) M where
  init := by
    show Discreet HillClimbing.init
    unfold HillClimbing.init
    refine fixes_bind (by simp) fun s => ?_
    exact fixes_bind (by simp [onHeuristic]) fun _ => by simp
  select := by
    have hattempt : Discreet (attempt : Act (HillClimbing G α) M α _) := by
      unfold attempt
      refine fixes_bind (by simp) fun _ => fixes_bind (by simp) fun h => fixes_ite ?_ ?_
      · exact fixes_bind (by simp) fun _ => fixes_bind (by simp) fun _ => by simp
      refine fixes_bind (by simp [onHeuristic]) fun d => ?_
      cases d with
      | yield => simp
      | empty => simp
      | candidate index c =>
        cases c with
        | lazy c => simp
        | eager m =>
          refine fixes_ite (fixes_bind ?_ fun _ => by simp) ?_
          · exact discreet_within (fixes_bind (by simp) fun _ => by simp)
          · exact fixes_bind (by simp [onHeuristic]) fun _ => by simp
    show Discreet HillClimbing.select
    unfold HillClimbing.select
    refine fixes_bind (by simp) fun h => ?_
    exact fixes_bind (fixes_firstOf hattempt _) fun _ => by simp

end HillClimbing

namespace GreatDeluge

theorem discreet_draw : Discreet (draw : Act (GreatDeluge G α) M α (Drawn V α)) := by
  unfold draw
  refine fixes_bind (by simp) fun s => fixes_bind (by simp) fun reference => ?_
  refine fixes_bind (by simp) fun before => ?_
  refine fixes_bind (by simp [onSchedule]) fun raised => fixes_bind (by simp) fun d => ?_
  dsimp only
  refine fixes_ite (fixes_bind (by simp) fun _ => by simp) ?_
  -- the flags and the level may be set before the draw
  refine fixes_when (by simp) fun _ => fixes_when (by simp) fun _ => ?_
  refine fixes_bind (by simp [onHeuristic]) fun drawn => ?_
  cases drawn with
  | yield => simp
  | empty => simp
  | candidate index c => exact fixes_bind (by simp) fun _ => by simp

theorem discreet : Strategy.Discreet (GreatDeluge G α) M where
  init := by
    show Discreet GreatDeluge.init
    unfold GreatDeluge.init
    refine fixes_bind (by simp) fun s => ?_
    exact fixes_bind (by simp [onHeuristic]) fun _ => by simp
  select := by
    have hoffer (index : Nat) (m : Move V α) : Discreet (do
        let bound := (← Act.part).schedule.bound
        onHeuristic (reportAccept "great_deluge" index m.delta fun _ => [
          ("bound", .outlined (Outline.optional Scalar.outline bound))])
        return some (some (.move m)) :
          Act (GreatDeluge G α) M α (Option (Option (Proposal V α)))) :=
      fixes_bind (by simp) fun _ => fixes_bind (by simp [onHeuristic]) fun _ => by simp
    have hattempt : Discreet (attempt : Act (GreatDeluge G α) M α _) := by
      unfold attempt
      refine fixes_bind discreet_draw fun d => ?_
      cases d with
      | yield => simp
      | empty => simp
      | candidate index c =>
        cases c with
        | lazy c => exact fixes_bind (by simp) fun _ => by simp
        | eager m =>
          refine fixes_bind (by simp) fun s => fixes_bind (by simp) fun total => ?_
          refine fixes_bind (by simp) fun d => fixes_ite (fixes_ite ?_ ?_) ?_
          · refine fixes_bind (by simp) fun _ => ?_
            exact fixes_bind (by simp [onHeuristic]) fun _ => hoffer index m
          · exact fixes_bind (by simp [onHeuristic]) fun _ => hoffer index m
          · exact fixes_bind (by simp [onHeuristic]) fun _ => by simp
    show Discreet GreatDeluge.select
    unfold GreatDeluge.select
    refine fixes_bind (fixes_firstOf hattempt _) fun answer? => ?_
    cases answer? with
    | some answer => simp
    | none => exact fixes_bind (by simp) fun d => fixes_bind (by simp) fun _ => by simp

end GreatDeluge

namespace SimulatedAnnealing

omit [MoveGenerator G M V α] in
@[simp]
theorem discreet_accept (total reference delta : α) :
    Discreet (accept total reference delta : Act (SimulatedAnnealing G α) M α Bool) := by
  unfold accept
  refine fixes_get_bind fun s => ?_
  obtain ⟨a, w⟩ := s
  exact ensures_set_bind_of_discreet rfl fun _ => by simp

theorem discreet_draw : Discreet (draw : Act (SimulatedAnnealing G α) M α (Drawn V α)) := by
  unfold draw
  refine fixes_bind (by simp [onSchedule]) fun turn => fixes_bind (by simp) fun a => ?_
  refine fixes_ite (fixes_bind (by simp) fun _ => by simp) ?_
  dsimp only
  refine fixes_when (by simp) fun _ => fixes_bind (by simp [onHeuristic]) fun drawn => ?_
  cases drawn with
  | yield => simp
  | empty => simp
  | candidate index c => exact fixes_bind (by simp) fun _ => by simp

theorem discreet : Strategy.Discreet (SimulatedAnnealing G α) M where
  init := by
    show Discreet SimulatedAnnealing.init
    unfold SimulatedAnnealing.init
    refine fixes_bind (by simp) fun s => fixes_bind (by simp [onHeuristic]) fun _ => ?_
    refine fixes_bind (by simp) fun size => ?_
    exact fixes_bind (by simp [onSchedule]) fun _ => by simp
  select := by
    have hoffer (index : Nat) (m : Move V α) : Discreet (do
        let temperature := (← Act.part).schedule.temperature
        onHeuristic (reportAccept "simulated_annealing" index m.delta fun _ => [
          ("temperature", .number temperature)])
        return some (some (.move m)) :
          Act (SimulatedAnnealing G α) M α (Option (Option (Proposal V α)))) :=
      fixes_bind (by simp) fun _ => fixes_bind (by simp [onHeuristic]) fun _ => by simp
    have hattempt : Discreet (attempt : Act (SimulatedAnnealing G α) M α _) := by
      unfold attempt
      refine fixes_bind discreet_draw fun d => ?_
      cases d with
      | yield => simp
      | empty => simp
      | candidate index c =>
        refine fixes_bind (by simp) fun s => fixes_bind (by simp) fun reference => ?_
        cases c with
        | lazy c =>
          refine fixes_bind (discreet_onWorld fun _ => ?_) fun seed => fixes_bind (by simp) fun _ => ?_
          · exact Attempt.ensures_modifyGet fun _ hw => hw
          · simp
        | eager m =>
          refine fixes_bind (by simp) fun s => fixes_bind (by simp) fun total => ?_
          refine fixes_bind (by simp) fun accepted => fixes_ite (fixes_ite ?_ ?_) ?_
          · exact fixes_bind (by simp [onHeuristic]) fun _ => hoffer index m
          · exact fixes_bind (by simp [onHeuristic]) fun _ => hoffer index m
          · exact fixes_bind (by simp [onHeuristic]) fun _ => by simp
    show Discreet SimulatedAnnealing.select
    unfold SimulatedAnnealing.select
    refine fixes_bind (fixes_firstOf hattempt _) fun answer? => ?_
    cases answer? with
    | some answer => simp
    | none => exact fixes_bind (by simp) fun d => fixes_bind (by simp) fun _ => by simp

end SimulatedAnnealing

/-! ## Group acceptance -/

namespace Group

omit [MoveGenerator G M V α] [Model M V α] in
@[simp]
theorem discreet_advanceDeluge (reference : α) :
    Discreet (advanceDeluge reference : Act (Group G α) M α Unit) := by
  simp [advanceDeluge]

omit [MoveGenerator G M V α] in
@[simp]
theorem discreet_decide (index : Nat) (delta reference : α) :
    Discreet (decide index delta reference : Act (Group G α) M α Decision) := by
  have hdeluge (total : α) :
      Discreet (decideByDeluge index delta total reference : Act (Group G α) M α Bool) := by
    unfold decideByDeluge
    refine fixes_bind (by simp) fun g => fixes_ite (by simp) ?_
    refine fixes_ite (fixes_bind (by simp) fun s => ?_) ?_
    · refine fixes_bind (by simp [onHeuristic]) fun _ => ?_
      exact fixes_bind (by simp) fun _ => by simp
    · exact fixes_bind (by simp) fun _ => by simp
  have hvote (s : AnnealingSchedule α) (total : α) :
      Discreet (decideByVote s delta total reference : Act (Group G α) M α Decision) := by
    unfold decideByVote
    refine fixes_get_bind fun s => ?_
    obtain ⟨g, w⟩ := s
    refine ensures_set_bind_of_discreet rfl fun _ => ?_
    refine fixes_ite (by simp) (fixes_bind (by simp [onAnnealing]) fun turn => ?_)
    refine fixes_bind (by simp) fun _ => fixes_ite (by simp) ?_
    exact fixes_bind (by simp) fun _ => by simp
  unfold decide
  refine fixes_bind (by simp) fun s => fixes_bind (by simp) fun total => ?_
  refine fixes_bind (by simp) fun g => ?_
  split
  · exact hvote _ total
  · exact fixes_bind (hdeluge total) fun _ => by simp

theorem discreet_selectByVote :
    Discreet (selectByVote : Act (Group G α) M α (Option (Proposal V α))) := by
  have hcriterion (reference : α) :
      Discreet (criterion reference : Act (Group G α) M α (Criterion α)) := by
    unfold criterion
    refine fixes_get_bind fun s => ?_
    obtain ⟨g, w⟩ := s
    exact ensures_set_bind_of_discreet rfl fun _ => by simp
  have hattempt (reference : α) : Discreet (attempt reference : Act (Group G α) M α _) := by
    unfold attempt
    refine fixes_bind (by simp [onHeuristic]) fun d => ?_
    cases d with
    | yield => simp
    | empty => simp
    | candidate index c =>
      cases c with
      | lazy c => exact fixes_bind (hcriterion reference) fun _ => by simp
      | eager m =>
        refine fixes_bind (by simp) fun decision => ?_
        cases decision with
        | dropped => simp
        | refused => exact fixes_bind (by simp [onHeuristic]) fun _ => by simp
        | accepted => exact fixes_bind (by simp [onHeuristic]) fun _ => by simp
  unfold selectByVote
  refine fixes_bind (by simp) fun s => fixes_bind (by simp) fun reference => ?_
  refine fixes_bind (by simp) fun g => ?_
  dsimp only
  exact fixes_when (by simp) fun _ => fixes_firstOf (hattempt reference) _

theorem discreet : Strategy.Discreet (Group G α) M where
  init := by
    show Discreet Group.init
    unfold Group.init
    refine fixes_bind (discreet_within Construction.discreet.init) fun _ => ?_
    refine fixes_bind (by simp) fun s => fixes_bind (by simp [onHeuristic]) fun _ => ?_
    refine fixes_bind (by simp) fun _ => fixes_bind (by simp) fun g => ?_
    split
    · exact fixes_bind (by simp) fun size => by simp [onAnnealing]
    · simp
  select := by
    show Discreet Group.select
    unfold Group.select
    refine fixes_bind (by simp) fun g => fixes_ite discreet_selectByVote ?_
    refine fixes_bind (discreet_within Construction.discreet_select) fun p? => ?_
    cases p? with
    | some p => simp
    | none =>
      refine fixes_bind (by simp) fun _ => fixes_bind (by simp) fun s => ?_
      exact fixes_bind (by simp) fun _ => discreet_selectByVote

end Group

/-! ## Orchestrators -/

namespace Orchestrator

omit [Scalar α] [MoveGenerator G M V α] in
@[simp]
theorem discreet_switchTo (phase : Phase) :
    Discreet (switchTo phase : Act (Orchestrator S α) M α Unit) := by
  unfold switchTo
  refine fixes_bind (by simp) fun s => ?_
  obtain ⟨o, w⟩ := s
  exact fixes_bind (by simp) fun fields => fixes_bind (by simp) fun _ => by simp

omit [Scalar α] [MoveGenerator G M V α] in
@[simp]
theorem discreet_enterStage (index : Nat) :
    Discreet (enterStage index : Act (Orchestrator S α) M α Unit) := by
  unfold enterStage
  refine fixes_bind (by simp) fun _ => fixes_bind (by simp) fun o => ?_
  exact fixes_bind (by simp) fun stage => by simp

variable [Strategy S M V α]

omit [Scalar α] [MoveGenerator G M V α] in
theorem discreet_restart : Discreet (restart M (V := V) : Act (Orchestrator S α) M α Unit) := by
  unfold restart unassignAll
  refine fixes_bind (fixes_bind (by simp) fun s =>
    discreet_onWorld (World.fixes_onModel (fun _ _ => rfl) _)) fun _ => ?_
  exact fixes_bind (by simp) fun _ => fixes_bind (by simp) fun o => fixes_bind (by simp) fun s => by
    simp

omit [MoveGenerator G M V α] in
/-- A step is discreet if the stages are. -/
theorem discreet_phaseStep (hS : Strategy.Discreet S M) (exhausted : Nat) :
    Discreet (phaseStep exhausted : Act (Orchestrator S α) M α
      (Except Nat (Option (Proposal V α)))) := by
  have hask (index : Nat) :
      Discreet (ask index : Act (Orchestrator S α) M α (Option (Proposal V α))) := by
    unfold ask
    refine fixes_bind (by simp) fun o => fixes_bind (by simp) fun stage => ?_
    exact discreet_within hS.select
  unfold phaseStep
  refine fixes_bind (by simp) fun o => ?_
  split
  · refine fixes_bind (discreet_within Construction.discreet_select) fun p? => ?_
    refine fixes_get_bind fun s => ?_
    obtain ⟨o, w⟩ := s
    refine ensures_set_bind_of_discreet rfl fun _ => ?_
    refine fixes_ite (fixes_bind (by simp) fun _ => by simp) (fixes_ite (by simp) ?_)
    exact fixes_bind (by simp) fun _ => by simp
  · exact fixes_bind discreet_restart fun _ => fixes_bind (by simp) fun _ => by simp
  · refine fixes_bind (by simp) fun o => fixes_bind (hask _) fun p? => ?_
    cases p? with
    | some p => simp
    | none =>
      refine fixes_bind (by simp) fun o => fixes_bind (by simp) fun _ => ?_
      exact fixes_ite (by simp) (by simp)

omit [MoveGenerator G M V α] in
theorem discreet (hS : Strategy.Discreet S M) : Strategy.Discreet (Orchestrator S α) M where
  init := by
    have hstage (index : Nat) :
        Discreet (initStage index : Act (Orchestrator S α) M α Unit) := by
      unfold initStage
      refine fixes_bind (by simp) fun o => fixes_bind (by simp) fun stage => ?_
      exact discreet_within hS.init
    show Discreet Orchestrator.init
    unfold Orchestrator.init
    refine fixes_bind (discreet_within Construction.discreet.init) fun _ => ?_
    refine fixes_bind (by simp) fun o => fixes_bind (fixes_forM _ hstage) fun _ => by simp
  select := by
    have hsteps (fuel exhausted : Nat) :
        Discreet (steps exhausted fuel : Act (Orchestrator S α) M α (Option (Proposal V α))) := by
      -- by induction on the number of steps that a call may take
      induction fuel generalizing exhausted with
      | zero => exact Attempt.fixes_throw _
      | succ fuel ih =>
        unfold steps
        refine fixes_bind (discreet_phaseStep hS exhausted) fun r => ?_
        cases r with
        | ok p? => simp
        | error exhausted => exact ih exhausted
    show Discreet Orchestrator.select
    unfold Orchestrator.select
    exact fixes_bind (by simp) fun o => hsteps _ _

end Orchestrator

/-! ## All strategies -/

theorem BasicStrategy.discreet : Strategy.Discreet (BasicStrategy G α) M where
  init := by
    show Discreet BasicStrategy.init
    unfold BasicStrategy.init
    refine fixes_bind (by simp) fun s => ?_
    cases s with
    | hillClimbing s => exact discreet_within HillClimbing.discreet.init
    | greatDeluge s => exact discreet_within GreatDeluge.discreet.init
    | simulatedAnnealing s => exact discreet_within SimulatedAnnealing.discreet.init
    | group s => exact discreet_within Group.discreet.init
    | construction s => exact discreet_within Construction.discreet.init
  select := by
    show Discreet BasicStrategy.select
    unfold BasicStrategy.select
    refine fixes_bind (by simp) fun s => ?_
    cases s with
    | hillClimbing s => exact discreet_within HillClimbing.discreet.select
    | greatDeluge s => exact discreet_within GreatDeluge.discreet.select
    | simulatedAnnealing s => exact discreet_within SimulatedAnnealing.discreet.select
    | group s => exact discreet_within Group.discreet.select
    | construction s => exact discreet_within Construction.discreet.select

/-- Preparing any strategy and asking it for a proposal are discreet. -/
theorem AnyStrategy.discreet : Strategy.Discreet (AnyStrategy G α) M where
  init := by
    show Discreet AnyStrategy.init
    unfold AnyStrategy.init
    refine fixes_bind (by simp) fun s => ?_
    cases s with
    | basic s => exact discreet_within BasicStrategy.discreet.init
    | orchestrator s => exact discreet_within (Orchestrator.discreet BasicStrategy.discreet).init
  select := by
    show Discreet AnyStrategy.select
    unfold AnyStrategy.select
    refine fixes_bind (by simp) fun s => ?_
    cases s with
    | basic s => exact discreet_within BasicStrategy.discreet.select
    | orchestrator s => exact discreet_within (Orchestrator.discreet BasicStrategy.discreet).select

end LocalSearch
