import LocalSearch.Proofs.Search.Callbacks
/-!
# Guards

The guards see what a strategy proposes, one after the other, until one of them refuses it or breaks
off. The guards behind that one do not see it.

* `World.questions`: what the guards were asked so far.
* `Engine.Heard`: what the guards of an engine were shown so far, which is what they were asked and
  what they remember.
* `Engine.Unasking`: nobody is asked. That is everything that a search does but to show a proposal.
* `Solver.selection`, `Solver.Proposals`: what the strategy proposes in the steps of a search.
  `Solver.Inquired.work` is one step, and `Solver.inquired_of_proposals` the induction over the
  steps of a search.
-/

namespace LocalSearch

open Act
open Attempt (after_bind_of_ok after_of_error after_of_ok bind_of_error bind_of_ok fixes_bind
  fixes_ite fixes_when)

variable {S M V α β : Type}

/-! ## Questions -/

/-- Whether a notice is a question to a guard. -/
def Notice.isQuestion : Notice α → Bool
  | asked _ _ _ => true
  | _ => false

/-- The questions to the guards so far, the first one first. -/
def World.questions (w : World M α) : List (Notice α) :=
  w.notices.reverse.filter Notice.isQuestion

theorem World.questions_tell (w : World M α) (notices : List (Notice α)) :
    (w.tell notices).questions = w.questions ++ notices.filter Notice.isQuestion := by
  simp [questions, tell]

/-- A question is part of the course of the search. -/
theorem World.questions_eq (w : World M α) : w.questions = w.course.filter Notice.isQuestion := by
  unfold questions course
  rw [List.filter_filter]
  refine congrArg (List.filter · _) (funext fun notice => ?_)
  cases notice <;> rfl

theorem Observers.filter_questions (o : Observers V α) (iteration : Nat) (p : Proposal V α) :
    (o.questions iteration p).filter Notice.isQuestion = o.questions iteration p := by
  refine List.filter_eq_self.2 fun notice hnotice => ?_
  obtain ⟨guard, -, hguard⟩ := List.mem_filterMap.1 hnotice
  obtain ⟨name, -, rfl⟩ := Option.map_eq_some_iff.1 hguard
  rfl

theorem World.questions_tell_of_none {w : World M α} {notices : List (Notice α)}
    (h : ∀ notice ∈ notices, notice.isQuestion = false) :
    (w.tell notices).questions = w.questions := by
  have hnone : notices.filter Notice.isQuestion = [] :=
    List.filter_eq_nil_iff.2 fun notice hnotice => by simp [h notice hnotice]
  rw [questions_tell, hnone, List.append_nil]

/-- A solution asks its listeners nothing. -/
theorem World.questions_tell_of_solution {w : World M α} {s : Solution M α}
    {notice : String → Nat → Notice α}
    (h : ∀ name iteration, (notice name iteration).ofSolution = true) :
    (w.tell (s.notices notice)).questions = w.questions := by
  refine questions_tell_of_none fun n hn => ?_
  have hsolution := Solution.ofSolution_notices h n hn
  cases n with
  | asked => cases hsolution
  | _ => rfl

theorem World.fixes_questions_saveBest [Scalar α] [Model M V α] :
    Attempt.Fixes World.questions (World.saveBest : Attempt (World M α) Unit) := by
  unfold World.saveBest
  refine fixes_bind (fun _ => Attempt.ensures_focus fun _ hw => Attempt.ensures_of
    (fun _ _ _ _ _ => hw) fun _ _ _ _ _ => hw) fun _ => Attempt.fixes_modify fun w => ?_
  exact World.questions_tell_of_solution fun _ _ => rfl

namespace Engine

/-! ## Operations that ask nobody -/

/-- The engine keeps its observers, and its guards are asked nothing. -/
abbrev Unasking (x : Act (Engine S M V α) M α β) : Prop :=
  Attempt.Fixes (fun t => (t.1.observers, t.2.questions)) x

theorem unasking_onStrategy {x : Act S M α β} (h : Discreet x) :
    Unasking (onStrategy x : Act (Engine S M V α) M α β) := by
  rintro _
  refine Attempt.ensures_focus fun t ht => ?_
  have hquestions {s : S × World M α} (hs : s.2.course = t.2.course) :
      s.2.questions = t.2.questions := by
    rw [World.questions_eq, World.questions_eq, hs]
  refine (h t.2.course).mono (fun _ hs => by rw [hs]) (fun _ _ hs => ?_) fun _ hs => ?_
  · exact (congrArg (t.1.observers, ·) (hquestions hs)).trans ht
  · exact (congrArg (t.1.observers, ·) (hquestions hs)).trans ht

theorem unasking_onWorld {x : Attempt (World M α) β} (h : Attempt.Fixes World.questions x) :
    Unasking (onWorld x : Act (Engine S M V α) M α β) := by
  rintro _
  refine Attempt.ensures_focus fun t ht => ?_
  refine (h t.2.questions).mono (fun _ hs => by rw [hs]) (fun _ _ hs => ?_) fun _ hs => ?_
  · exact (congrArg (t.1.observers, ·) hs).trans ht
  · exact (congrArg (t.1.observers, ·) hs).trans ht

@[simp]
theorem unasking_solution : Unasking (solution : Act (Engine S M V α) M α (Solution M α)) :=
  fun _ _ hs => hs

@[simp]
theorem unasking_report (level : Level) (name : String)
    (fields : Unit → List (String × FieldValue α)) :
    Unasking (report level name fields : Act (Engine S M V α) M α Unit) :=
  Attempt.fixes_modify fun _ => rfl

theorem unasking_tellHooks {notice : String → Notice α}
    (h : ∀ name, (notice name).isQuestion = false) :
    Unasking (tellHooks notice : Act (Engine S M V α) M α Unit) :=
  Attempt.fixes_modify fun t => by
    rw [World.questions_tell_of_none fun n hn => ?_]
    rw [Observers.notices_eq] at hn
    obtain ⟨name, -, rfl⟩ := List.mem_map.1 hn
    exact h name

theorem unasking_tellExtensions {notice : String → Notice α}
    (h : ∀ name, (notice name).isQuestion = false) :
    Unasking (tellExtensions notice : Act (Engine S M V α) M α Unit) :=
  Attempt.fixes_modify fun t => by
    rw [World.questions_tell_of_none fun n hn => ?_]
    rw [Extensions.notices_eq] at hn
    obtain ⟨name, -, rfl⟩ := List.mem_map.1 hn
    exact h name

theorem unasking_initExtensions :
    Unasking (onExtensions Extensions.init : Act (Engine S M V α) M α Unit) := by
  have hinit : Attempt.Fixes (fun t => t.2.questions)
      (Extensions.init : Act Extensions M α Unit) :=
    fixes_initExtensions fun t name => World.questions_tell_of_none fun notice hnotice => by
      rw [List.mem_singleton.1 hnotice]
      rfl
  rintro _
  refine Attempt.ensures_focus fun t ht => ?_
  refine (hinit t.2.questions).mono (fun _ hs => by rw [hs]) (fun _ _ hs => ?_) fun _ hs => ?_
  · exact (congrArg (t.1.observers, ·) hs).trans ht
  · exact (congrArg (t.1.observers, ·) hs).trans ht

theorem unasking_fail (failure : Failure) :
    Unasking (fail failure : Act (Engine S M V α) M α Unit) := by
  unfold fail
  refine fixes_bind (by simp) fun s => fixes_bind (by simp) fun _ => ?_
  exact unasking_tellHooks fun _ => rfl

section

variable [Scalar α]

theorem unasking_close (ending : Ending) (state : String) (time : α) :
    Unasking (close ending state time : Act (Engine S M V α) M α Unit) := by
  unfold close
  refine fixes_bind (unasking_tellExtensions fun _ => rfl) fun _ => fixes_bind (by simp) fun s => ?_
  cases ending with
  | stopped => exact fixes_bind (unasking_tellHooks fun _ => rfl) fun _ => by simp
  | done => exact fixes_bind (unasking_tellHooks fun _ => rfl) fun _ => by simp

omit [Scalar α] in
theorem unasking_count (time : α) : Unasking (count time : Act (Engine S M V α) M α Unit) :=
  Attempt.fixes_modify fun t => congrArg (t.1.observers, ·)
    (World.questions_tell_of_solution fun _ _ => rfl)

variable [Model M V α] [Strategy S M V α]

theorem unasking_saveIfBetter : Unasking (saveIfBetter : Act (Engine S M V α) M α Unit) := by
  have hsave : Unasking (saveBest : Act (Engine S M V α) M α Unit) := by
    unfold saveBest
    refine fixes_bind (by simp) fun before => ?_
    refine fixes_bind (unasking_onWorld World.fixes_questions_saveBest) fun _ => ?_
    refine fixes_bind (unasking_onStrategy (discreet_change _)) fun _ => ?_
    refine fixes_bind (by simp) fun s => ?_
    exact fixes_when (by simp) fun _ => by simp
  unfold saveIfBetter
  refine fixes_bind (by simp) fun (e, w) => fixes_ite ?_ (by simp)
  exact fixes_bind (by simp) fun _ => fixes_ite hsave (by simp)

theorem unasking_announce (iteration : Nat) :
    Unasking (announce iteration : Act (Engine S M V α) M α Bool) := by
  unfold announce
  refine fixes_bind (unasking_tellHooks fun _ => rfl) fun _ => ?_
  refine fixes_bind unasking_saveIfBetter fun _ => fixes_bind (by simp) fun s => ?_
  exact fixes_ite (fixes_bind (by simp) fun _ => by simp) (by simp)

theorem unasking_opening (hS : Strategy.Discreet S M) :
    Unasking (opening : Act (Engine S M V α) M α Bool) := by
  rw [opening_eq]
  refine fixes_bind (unasking_onStrategy hS.init) fun _ => ?_
  refine fixes_bind unasking_initExtensions fun _ => fixes_bind (by simp) fun (e, w) => ?_
  dsimp only
  refine fixes_ite (fixes_bind (by simp) fun total => ?_) (unasking_announce _)
  exact fixes_bind (by simp) fun _ => unasking_announce _

theorem unasking_commit (p : Proposal V α) (time : α) :
    Unasking (commit p time : Act (Engine S M V α) M α Unit) := by
  have hcommit : Unasking
      (onWorld (World.onModel p.commit) : Act (Engine S M V α) M α (Commit α)) :=
    unasking_onWorld (World.fixes_onModel (fun _ _ => rfl) p.commit)
  unfold commit
  refine fixes_bind (by simp) fun before => ?_
  dsimp only
  refine fixes_bind hcommit fun c => fixes_bind (unasking_count time) fun _ => ?_
  cases c with
  | rejected delta => simp
  | applied delta =>
    refine fixes_bind (by simp) fun _ => fixes_bind (by simp) fun now => ?_
    refine fixes_bind (unasking_tellHooks fun _ => rfl) fun _ => ?_
    exact fixes_bind (unasking_tellExtensions fun _ => rfl) fun _ => unasking_saveIfBetter

/-! ## Showing a proposal -/

end

/-- The guards of `o`, who were asked `questions` before, were shown these proposals since, each in
its iteration and in this order. -/
structure Heard (o : Observers V α) (questions : List (Notice α))
    (proposals : List (Nat × Proposal V α)) (t : Engine S M V α × World M α) : Prop where
  observers : t.1.observers = o.heardAll proposals
  questions : t.2.questions = questions ++ o.dialogue proposals

variable {o : Observers V α} {questions : List (Notice α)} {proposals : List (Nat × Proposal V α)}
  {e : Engine S M V α} {w : World M α} {t : Engine S M V α × World M α} {p : Proposal V α} {time : α}

theorem Unasking.heard {x : Act (Engine S M V α) M α β} (hx : Unasking x) :
    Attempt.Ensures (Heard o questions proposals) x (fun _ => Heard o questions proposals)
      (Heard o questions proposals) :=
  (Attempt.Fixes.ensures hx fun c => c.1 = o.heardAll proposals ∧
    c.2 = questions ++ o.dialogue proposals).mono
      (fun _ h => ⟨h.observers, h.questions⟩) (fun _ _ h => ⟨h.1, h.2⟩) fun _ h => ⟨h.1, h.2⟩

/-- Showing one more proposal. -/
theorem Heard.shown (h : Heard o questions proposals t) (p : Proposal V α) :
    Heard o questions (proposals ++ [(t.2.solution.iteration, p)]) (Engine.shown t p) where
  observers := by
    rw [Observers.heardAll_append, ← h.observers]
    rfl
  questions := by
    have hasked : t.1.observers.dialogue [(t.2.solution.iteration, p)] =
        t.1.observers.questions t.2.solution.iteration p := List.append_nil _
    rw [Observers.dialogue_append, ← h.observers, hasked, ← List.append_assoc, ← h.questions]
    show (t.2.tell (t.1.observers.questions t.2.solution.iteration p)).questions = _
    rw [World.questions_tell, Observers.filter_questions]

section

variable [Scalar α] [Model M V α] [Strategy S M V α]

omit [Scalar α] [Model M V α] in
/-- What the strategy proposes, with the engine and the world that the selection leaves. -/
def selection (t : Engine S M V α × World M α) :
    Option (Proposal V α × Engine S M V α × World M α) :=
  match onStrategy Strategy.select t with
  | .ok (some p) t => some (p, t)
  | _ => none

omit [Scalar α] [Model M V α] in
/-- The same with the iteration in which the guards see it. -/
def proposed (t : Engine S M V α × World M α) : List (Nat × Proposal V α) :=
  (selection t).toList.map fun (p, t) => (t.2.solution.iteration, p)

/-- A pass shows what the strategy proposes, and asks about nothing else. -/
theorem pass_heard (hS : Strategy.Discreet S M) (time : α)
    (h : Heard o questions proposals (e, w)) :
    Heard o questions (proposals ++ proposed (e, w))
      ((pass time : Act (Engine S M V α) M α Unit).after (e, w)) := by
  have hselect : Attempt.Ensures (Heard o questions proposals)
      (onStrategy Strategy.select : Act (Engine S M V α) M α (Option (Proposal V α))) _ _ :=
    (unasking_onStrategy hS.select).heard
  have hidle : Unasking (do
      let iteration := (← Act.solution).iteration
      Act.report .trace "no_neighbour" fun _ => [("iteration", .count iteration)]
      count time : Act (Engine S M V α) M α Unit) :=
    fixes_bind (by simp) fun _ => fixes_bind (by simp) fun _ => unasking_count time
  unfold proposed selection
  cases hrun : (onStrategy Strategy.select (e, w) :
      EStateM.Result Failure _ (Option (Proposal V α))) with
  | error failure t =>
    have ht := hselect.of_error h hrun
    rw [pass_of_select_error (select_of_error hrun)]
    exact (List.append_nil proposals).symm ▸ ht
  | ok p? t =>
    have ht := hselect.of_ok h hrun
    cases p? with
    | none =>
      unfold pass
      rw [after_bind_of_ok (select_of_none hrun)]
      exact (List.append_nil proposals).symm ▸ hidle.heard.after ht
    | some p =>
      -- whatever comes of it, nobody is asked after that
      have hshown := ht.shown p
      cases hanswer : t.1.observers.answer t.2.solution.iteration p with
      | error fault =>
        rw [pass_of_select_error (select_of_break hrun hanswer)]
        exact hshown
      | ok kept => cases kept with
        | true =>
          rw [pass_of_select_some (select_of_kept hrun hanswer)]
          exact (unasking_commit p time).heard.after hshown
        | false =>
          unfold pass
          rw [after_bind_of_ok (select_of_veto hrun hanswer)]
          exact hidle.heard.after hshown

omit [Scalar α] [Model M V α] in
theorem of_selection_eq_some (h : selection (e, w) = some (p, t)) :
    onStrategy Strategy.select (e, w) = .ok (some p) t := by
  unfold selection at h
  split at h
  · rename_i hrun
    cases h
    exact hrun
  · cases h

/-- A pass without a proposal counts as an iteration, and does nothing else to what the selection has
left. -/
theorem pass_of_none (time : α) (h : select (e, w) = .ok none t) :
    ∃ w', (pass time : Act (Engine S M V α) M α Unit) (e, w) = .ok () (t.1, w') ∧
      w'.solution = t.2.solution.update time :=
  ⟨_, bind_of_ok h, rfl⟩

/-- A turn that ends the search proposes nothing. -/
theorem turn_heard (hS : Strategy.Discreet S M) (stop : Bool) (time : α)
    (h : Heard o questions proposals (e, w)) :
    Heard o questions
      (proposals ++ if stop || e.termination.holds w.solution then [] else proposed (e, w))
      ((turn stop time : Act (Engine S M V α) M α (Option Ending)).after (e, w)) := by
  cases stop with
  | true => exact (List.append_nil proposals).symm ▸ h
  | false =>
    cases hdone : e.termination.holds w.solution with
    | true =>
      rw [after_of_ok (turn_eq_done time hdone)]
      exact (List.append_nil proposals).symm ▸ h
    | false =>
      rw [after_turn hdone]
      exact pass_heard hS time h

end

end Engine

/-! ## Searches -/

namespace Solver

variable [Scalar α] [Model M V α] [Strategy S M V α] {s s' : Solver S M V α} {o : Observers V α}
  {questions : List (Notice α)} {proposals : List (Nat × Proposal V α)}

/-- What the strategy proposes in the next step of the worker, with the engine and the world that
its selection leaves. -/
def selection (s : Solver S M V α) : Option (Proposal V α × Engine S M V α × World M α) :=
  match s.worker with
  | some ⟨e, .passing _⟩ =>
    if s.stopRequested || e.termination.holds s.world.solution then none
    else Engine.selection (e, s.world)
  | _ => none

/-- What the strategy proposes in the next step of the worker, with the iteration in which the
guards see it. -/
def proposed (s : Solver S M V α) : List (Nat × Proposal V α) :=
  s.selection.toList.map fun (p, t) => (t.2.solution.iteration, p)

/-- Some steps of a search with what the strategy proposes in them. -/
inductive Proposals (s : Solver S M V α) : List (Nat × Proposal V α) → Solver S M V α → Prop
  | refl : Proposals s [] s
  | work {proposals : List (Nat × Proposal V α)} {s' : Solver S M V α}
    (h : Proposals s proposals s') : Proposals s (proposals ++ s'.proposed) s'.work
  | stop {proposals : List (Nat × Proposal V α)} {s' : Solver S M V α}
    (h : Proposals s proposals s') : Proposals s proposals s'.stop

theorem proposals_iterate (s : Solver S M V α) (m : Nat) :
    Proposals s ((List.range m).flatMap fun k => (work^[k] s).proposed) (work^[m] s) := by
  induction m with
  | zero => exact .refl
  | succ m ih =>
    rw [List.range_succ, List.flatMap_append, List.flatMap_singleton, Function.iterate_succ_apply']
    exact ih.work

omit [Scalar α] [Model M V α] [Strategy S M V α] in
/-- The guards of the worker were shown these proposals. -/
def Inquired (o : Observers V α) (questions : List (Notice α))
    (proposals : List (Nat × Proposal V α)) (s : Solver S M V α) : Prop :=
  ∃ w, s.worker = some w ∧ Engine.Heard o questions proposals (w.engine, s.world)

variable {t : Engine S M V α × World M α}

omit [Model M V α] [Strategy S M V α] in
theorem inquired_workerCloses (ending : Ending) (time : α)
    (h : Engine.Heard o questions proposals t) :
    Inquired o questions proposals (s.workerCloses t.1 t.2 ending time) := by
  rw [workerCloses_eq]
  exact ⟨_, rfl, (Engine.unasking_close ending _ time).heard.after h⟩

omit [Scalar α] [Model M V α] [Strategy S M V α] in
theorem inquired_workerFails (failure : Failure) (h : Engine.Heard o questions proposals t) :
    Inquired o questions proposals (s.workerFails t.1 t.2 failure) := by
  rw [workerFails_eq]
  exact ⟨_, rfl, (Engine.unasking_fail failure).heard.after h⟩

/-- A step shows the guards what the strategy proposes in it, and asks about nothing else. -/
theorem Inquired.work (hS : Strategy.Discreet S M) (h : Inquired o questions proposals s) :
    Inquired o questions (proposals ++ s.proposed) s.work := by
  obtain ⟨⟨e, stage⟩, hworker, h⟩ := h
  have hidle (hstage : ∀ k, stage ≠ .passing k) : proposals ++ s.proposed = proposals := by
    unfold proposed selection
    rw [hworker]
    cases stage with
    | passing k => exact (hstage k rfl).elim
    | _ => exact List.append_nil _
  cases stage with
  | ended =>
    rw [hidle nofun, work_of_ended hworker]
    exact ⟨_, hworker, h⟩
  | closed state =>
    rw [hidle nofun, work_of_closed hworker]
    exact ⟨_, rfl, h⟩
  | opening =>
    rw [hidle nofun]
    have hopening := (Engine.unasking_opening (V := V) hS).heard.after h
    cases hrun : (Engine.opening (e, s.world) : EStateM.Result Failure _ Bool) with
    | error failure t =>
      rw [after_of_error hrun] at hopening
      rw [work_of_opening_error hworker hrun]
      exact inquired_workerFails failure hopening
    | ok nothing t =>
      rw [after_of_ok hrun] at hopening
      rw [work_of_opening_ok hworker hrun]
      exact ⟨_, rfl, hopening⟩
  | passing k =>
    have hproposed : s.proposed =
        if s.stopRequested || e.termination.holds s.world.solution then []
        else Engine.proposed (e, s.world) := by
      unfold proposed selection
      rw [hworker]
      dsimp only
      split <;> rfl
    have hturn := Engine.turn_heard hS s.stopRequested (s.clock k) h
    rw [← hproposed] at hturn
    cases hrun : (Engine.turn s.stopRequested (s.clock k) (e, s.world) :
        EStateM.Result Failure _ (Option Ending)) with
    | error failure t =>
      rw [after_of_error hrun] at hturn
      rw [work_of_turn_error hworker hrun]
      exact inquired_workerFails failure hturn
    | ok ending? t =>
      rw [after_of_ok hrun] at hturn
      cases ending? with
      | none =>
        rw [work_of_turn_none hworker hrun]
        exact ⟨_, rfl, hturn⟩
      | some ending =>
        rw [work_of_turn_some hworker hrun]
        exact inquired_workerCloses ending (s.clock k) hturn

theorem inquired_of_proposals (hS : Strategy.Discreet S M) (h : Inquired o questions [] s)
    (hproposals : Proposals s proposals s') : Inquired o questions proposals s' := by
  -- by induction on the steps, from the first one on
  induction hproposals with
  | refl => exact h
  | work _ ih => exact ih.work hS
  | stop _ ih => exact ih

omit [Model M V α] in
theorem of_selection_eq_some {e : Engine S M V α} {k : Nat} {p : Proposal V α}
    {t : Engine S M V α × World M α} (hworker : s.worker = some ⟨e, .passing k⟩)
    (h : s.selection = some (p, t)) :
    s.stopRequested = false ∧ e.termination.holds s.world.solution = false ∧
      Engine.onStrategy Strategy.select (e, s.world) = .ok (some p) t := by
  unfold selection at h
  rw [hworker] at h
  dsimp only at h
  split at h
  · cases h
  · rename_i hgoes
    rw [Bool.or_eq_true, not_or, Bool.not_eq_true, Bool.not_eq_true] at hgoes
    exact ⟨hgoes.1, hgoes.2, Engine.of_selection_eq_some h⟩

/-- What the guards see of a search with any strategy, generators and observers, whatever the guards
answer and remember.

* The guards were asked about every proposal of the strategy once, and about nothing else, and this
  is what they remember.
* They are asked in the order of their registration, up to the first one that stops the proposal.
  All of them see it unless one that is not the last one stops it. Either all guards keep a proposal,
  or one of those that see it refuses it or breaks off.
* If all guards keep a proposal, it is committed from the state in which it was shown.
* If one that sees it refuses it, it is not committed. The pass counts as an iteration, and leaves
  the model as the selection has left it.
* If one that sees it breaks off, it is not committed, and the search fails with the solution as the
  selection has left it. -/
theorem proposals_shown {G : Type} [MoveGenerator G M V α]
    {s s₀ s₁ : Solver (AnyStrategy G α) M V α} {e : Engine (AnyStrategy G α) M V α}
    (hengine : s.engine = some e) (hstart : s.start = .ok s₀)
    (hproposals : Proposals s₀ proposals s₁) :
    s₁.world.questions = s.world.questions ++ e.observers.dialogue proposals ∧
    (∀ w, s₁.worker = some w → w.engine.observers = e.observers.heardAll proposals) ∧
    (∀ (o : Observers V α) i p, o.asked i p <+: o.guards ∧
      (∀ guard ∈ (o.asked i p).dropLast, guard.keeps i p = .ok true) ∧
      (o.asked i p = o.guards ↔ ∀ guard ∈ o.guards.dropLast, guard.keeps i p = .ok true) ∧
      ((∀ guard ∈ o.guards, guard.keeps i p = .ok true) ∨
        (∃ guard ∈ o.asked i p, guard.keeps i p = .ok false) ∨
        ∃ guard ∈ o.asked i p, ∃ fault, guard.keeps i p = .error fault)) ∧
    ∀ e₁ k p t, s₁.worker = some ⟨e₁, .passing k⟩ → s₁.selection = some (p, t) →
      let i := t.2.solution.iteration
      let o := e.observers.heardAll proposals
      ((∀ guard ∈ o.guards, guard.keeps i p = .ok true) →
        s₁.applied = p.applied t.2.solution.model ∧
        s₁.work.world.solution = ((Engine.commit p (s₁.clock k) : Act _ M α Unit).after
          (Engine.shown t p)).2.solution) ∧
      ((∃ guard ∈ o.asked i p, guard.keeps i p = .ok false) →
        s₁.applied = [] ∧ s₁.work.worker = some ⟨t.1.heard i p, .passing (k + 1)⟩ ∧
        s₁.work.world.solution = t.2.solution.update (s₁.clock k) ∧
        s₁.work.world.solution.model = t.2.solution.model) ∧
      ((∃ guard ∈ o.asked i p, ∃ fault, guard.keeps i p = .error fault) →
        s₁.applied = [] ∧ s₁.work.Fails ∧ s₁.work.world.solution = t.2.solution) := by
  obtain ⟨e', hengine', hworker, hworld⟩ := worker_of_start hstart
  cases hengine.symm.trans hengine'
  have hS : Strategy.Discreet (AnyStrategy G α) M := AnyStrategy.discreet
  have hbefore : s₀.Inquired e.observers s.world.questions [] :=
    ⟨_, hworker, rfl, by rw [hworld]; exact (List.append_nil _).symm⟩
  obtain ⟨w, hw, hobservers, hquestions⟩ := inquired_of_proposals hS hbefore hproposals
  refine ⟨hquestions, fun w' hw' => ?_, fun o i p => ⟨o.asked_prefix i p,
    fun guard => Observers.keeps_of_mem_dropLast_asked, Observers.asked_eq_guards_iff,
    o.answer_cases i p⟩, fun e₁ k p t hpassing hselection => ?_⟩
  · cases hw.symm.trans hw'
    exact hobservers
  cases hw.symm.trans hpassing
  obtain ⟨hstop, hgoes, hrun⟩ := of_selection_eq_some hpassing hselection
  -- the selection leaves the observers to the engine
  have ho : t.1.observers = e.observers.heardAll proposals :=
    (congrArg Prod.fst (((Engine.unasking_onStrategy hS.select).at _).of_ok rfl hrun)).trans
      hobservers
  have happlied : s₁.applied = Engine.appliedByPass (e₁, s₁.world) := by
    unfold applied Engine.appliedByTurn
    rw [hpassing]
    simp [hstop, hgoes]
  have hwork := work_of_passing hpassing hstop hgoes
  rw [happlied, ← ho]
  refine ⟨fun hkept => ?_, fun ⟨guard, hasked, hveto⟩ => ?_,
    fun ⟨guard, hasked, fault, hbreak⟩ => ?_⟩
  · have hselect := Engine.select_of_kept hrun (Observers.answer_of_forall_keeps hkept)
    unfold Engine.appliedByPass
    rw [hwork, Engine.pass_of_select_some hselect, hselect]
    exact ⟨rfl, rfl⟩
  · have hanswer := (Observers.answer_of_mem_asked hasked (by simp [hveto])).trans hveto
    have hselect := Engine.select_of_veto hrun hanswer
    obtain ⟨w', hpass, hsolution⟩ := Engine.pass_of_none (s₁.clock k) hselect
    have hturn := (Engine.turn_eq_pass (s₁.clock k) hgoes).trans (bind_of_ok hpass)
    rw [← hstop] at hturn
    unfold Engine.appliedByPass
    rw [hselect, work_of_turn_none hpassing hturn]
    refine ⟨rfl, rfl, hsolution, ?_⟩
    rw [hsolution]
    rfl
  · have hanswer := (Observers.answer_of_mem_asked hasked (by simp [hbreak])).trans hbreak
    have hselect := Engine.select_of_break hrun hanswer
    have hturn := (Engine.turn_eq_pass (s₁.clock k) hgoes).trans
      (bind_of_error (bind_of_error hselect))
    rw [← hstop] at hturn
    unfold Engine.appliedByPass
    rw [hwork, Engine.pass_of_select_error hselect, hselect, work_of_turn_error hpassing hturn]
    exact ⟨rfl, fails_workerFails _ _ _, rfl⟩

/-- A guard that keeps every proposal. -/
def lenient : Guard Nat ℚ :=
  { name := some "lenient", rule := fun _ _ _ => .ok true }

/-- A guard that refuses every proposal. -/
def strict : Guard Nat ℚ :=
  { name := some "strict", rule := fun _ _ _ => .ok false }

/-- A step to a better state is shown to both guards and not made, as the second one refuses it. -/
theorem proposals_shown_lenient :
    ∃ proposals, (guarded [lenient, strict]).start = .ok (guarding [lenient, strict]) ∧
      Proposals (guarding [lenient, strict]) proposals (work^[2] (guarding [lenient, strict])) ∧
      proposals.map (fun (i, p) => (i, p.delta?)) = [(0, some (-1))] ∧
      (work^[2] (guarding [lenient, strict])).world.questions =
        [.asked "lenient" (some (-1)) 0, .asked "strict" (some (-1)) 0] ∧
      ∃ p t, (work^[1] (guarding [lenient, strict])).selection = some (p, t) ∧
        (work^[2] (guarding [lenient, strict])).world.solution = t.2.solution.update 0 := by
  have hstart : (guarded [lenient, strict]).start = .ok (guarding [lenient, strict]) := rfl
  have hproposals := proposals_iterate (guarding [lenient, strict]) 2
  have hshown := (proposals_shown (s := guarded [lenient, strict]) rfl hstart hproposals).1
  refine ⟨_, hstart, hproposals, by decide +kernel, hshown.trans (by decide +kernel), ?_⟩
  -- the step before the pass
  have hstage : (work^[1] (guarding [lenient, strict])).worker.map Worker.stage =
      some (.passing 1) := by
    decide +kernel
  have hselects : (work^[1] (guarding [lenient, strict])).selection.isSome = true := by
    decide +kernel
  obtain ⟨⟨e₁, stage⟩, hworker, rfl⟩ := Option.map_eq_some_iff.1 hstage
  obtain ⟨⟨p, t⟩, hselection⟩ := Option.isSome_iff_exists.1 hselects
  have hnone : ((List.range 1).flatMap fun k =>
      (work^[k] (guarding [lenient, strict])).proposed) = [] :=
    List.length_eq_zero_iff.1 (by decide +kernel)
  have hopening := proposals_iterate (guarding [lenient, strict]) 1
  rw [hnone] at hopening
  have hveto := ((proposals_shown (s := guarded [lenient, strict]) rfl hstart
    hopening).2.2.2 e₁ 1 p t hworker hselection).2.1
  exact ⟨p, t, hselection, (hveto ⟨strict, .tail _ (.head _), rfl⟩).2.2.1⟩

/-- The step is not shown to the second guard if the first one refuses it. -/
theorem not_shown_lenient :
    ∃ proposals, (guarded [strict, lenient]).start = .ok (guarding [strict, lenient]) ∧
      Proposals (guarding [strict, lenient]) proposals (work^[2] (guarding [strict, lenient])) ∧
      proposals.map (fun (i, p) => (i, p.delta?)) = [(0, some (-1))] ∧
      ∀ delta i, .asked "lenient" delta i ∉
        (work^[2] (guarding [strict, lenient])).world.questions := by
  refine ⟨_, rfl, proposals_iterate _ 2, by decide +kernel, fun delta i hmem => ?_⟩
  have hquestions : (work^[2] (guarding [strict, lenient])).world.questions =
      [.asked "strict" (some (-1)) 0] := by
    decide +kernel
  rw [hquestions] at hmem
  simp at hmem

end Solver

end LocalSearch
