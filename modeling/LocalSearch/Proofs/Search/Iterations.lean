import LocalSearch.Proofs.Search.Ledger
import LocalSearch.Selector.Script
/-!
# Counting iterations

A solution has two counters. Every update raises both; going back to the best state sets one of
them back. The limit on iterations looks at the other one.

* `Solution.Attained`: what the operations on a solution make of a fresh one. Its iteration is never
  above the number of updates.
* `Solution.Lasting`: what all operations keep. `Solver.holds_of_lasting`: a search keeps it too.
* `Solver.countsPass`: a pass counts one update, unless its selection or its commit fails or a guard
  breaks off.
* `Solver.Counting`: before a pass of a search with a limit on the updates.
  `Solver.counting_iterate` goes from pass to pass, by induction.
-/

namespace LocalSearch

open Act

variable {M V α : Type} [Scalar α] [Model M V α]

/-! ## Solutions -/

/-- A property that survives keeping the state as the best one, also if that fails halfway. -/
def KeptBySave (I : Solution M α → Prop) : Prop :=
  ∀ s, I s → I (Attempt.after Solution.saveBest s)

namespace Solution

/-- What the operations on a solution make of a fresh one. Its owner may also work on the model and
change the observers. -/
inductive Attained : Solution M α → Prop
  | ofModel (model : M) : Attained (.ofModel model)
  | model {s : Solution M α} (h : Attained s) (model : M) : Attained { s with model }
  | observed {s : Solution M α} (h : Attained s) (listeners : List SolutionListener)
    (perturbation : Option (M → α)) : Attained { s with listeners, perturbation }
  | update {s : Solution M α} (h : Attained s) (time : α) : Attained (s.update time)
  | saveBest {s : Solution M α} (h : Attained s) : Attained (Attempt.after Solution.saveBest s)
  | restoreBest {s : Solution M α} (h : Attained s) : Attained s.restoreBest
  | clearBest {s : Solution M α} (h : Attained s) : Attained s.clearBest

/-- A property that everything a search does to its solution keeps. -/
structure Lasting (I : Solution M α → Prop) : Prop where
  model : ∀ s m, I s → I { s with model := m }
  update : ∀ s time, I s → I (s.update time)
  saveBest : KeptBySave I
  restoreBest : KeptByRestore I

theorem lasting_attained : Lasting (Attained : Solution M α → Prop) where
  model _ m h := h.model m
  update _ time h := h.update time
  saveBest _ h := h.saveBest
  restoreBest _ h := h.restoreBest

/-- Neither the iteration nor that of the best state is above the number of updates. -/
structure Counted (s : Solution M α) : Prop where
  iteration : s.iteration ≤ s.totalIterations
  best : ∀ b, s.best = some b → b.iteration ≤ s.totalIterations

/-- Either only the model has kept its assignment, or the best state is recorded. -/
theorem after_saveBest (s : Solution M α) :
    Attempt.after Solution.saveBest s = { s with model := Model.saveBest s.model } ∨
      s.Saved (Attempt.after Solution.saveBest s) := by
  have hleaves := Solution.saveBest_leaves s
  unfold Attempt.after
  cases hrun : (Solution.saveBest : Attempt (Solution M α) Unit) s with
  | ok _ s' => exact .inr (hleaves.of_ok rfl hrun)
  | error _ s' => exact .inl (hleaves.of_error rfl hrun).1

theorem keptBySave_counted : KeptBySave (Counted : Solution M α → Prop) := by
  intro s hs
  rcases after_saveBest s with h | ⟨b, hb, h⟩
  · rw [h]
    exact ⟨hs.iteration, hs.best⟩
  · rw [h]
    -- the snapshot is of the current iteration
    refine ⟨hs.iteration, fun b' hb' => ?_⟩
    cases hb'
    exact (of_snapshot_eq_ok hb).1.symm ▸ hs.iteration

theorem keptBySave_totalIterations (n : Nat) :
    KeptBySave fun s : Solution M α => s.totalIterations = n := by
  intro s hs
  rcases after_saveBest s with h | ⟨b, -, h⟩
  · rw [h]
    exact hs
  · rw [h]
    exact hs

omit [Scalar α] in
theorem keptByRestore_totalIterations (n : Nat) :
    KeptByRestore fun s : Solution M α => s.totalIterations = n := by
  intro s hs
  unfold restoreBest
  cases s.best with
  | none => exact hs
  | some b => exact hs

omit [Scalar α] in
theorem keptByUnassign_totalIterations (n : Nat) :
    KeptByUnassign fun s : Solution M α => s.totalIterations = n :=
  fun _ _ _ hs _ => hs

theorem Attained.counted {s : Solution M α} (h : Attained s) : s.Counted := by
  induction h with
  | ofModel m => exact ⟨Nat.le_refl _, nofun⟩
  | model _ m ih => exact ⟨ih.iteration, ih.best⟩
  | observed _ listeners perturbation ih => exact ⟨ih.iteration, ih.best⟩
  | update _ time ih =>
    exact ⟨Nat.succ_le_succ ih.iteration, fun b hb => Nat.le_succ_of_le (ih.best b hb)⟩
  | saveBest _ ih => exact keptBySave_counted _ ih
  | @restoreBest s _ ih =>
    unfold Solution.restoreBest
    cases hbest : s.best with
    | none => exact ih
    | some b => exact ⟨ih.best b hbest, fun b' hb' => ih.best b' (hbest.trans hb')⟩
  | clearBest _ ih => exact ⟨ih.iteration, nofun⟩

end Solution

/-! ## The operations of an engine -/

namespace Engine

variable {S : Type} [Strategy S M V α] {I P E : Solution M α → Prop} {p : Proposal V α} {time : α}

omit [Scalar α] [Model M V α] [Strategy S M V α] in
theorem count_ensures (h : ∀ s, P s → I (s.update time)) :
    Ensures P (count time : Act (Engine S M V α) M α Unit) (fun _ => I) E :=
  fun t ht => h t.2.solution ht

theorem saveIfBetter_ensures (hI : KeptBySave I) :
    Ensures I (saveIfBetter : Act (Engine S M V α) M α Unit) (fun _ => I) I := by
  have hkeep : Attempt.Ensures (fun w => I w.solution) (World.saveBest : Attempt (World M α) Unit)
      (fun _ w => I w.solution) (fun w => I w.solution) := by
    unfold World.saveBest
    refine Attempt.Ensures.bind (Q := fun _ w => I w.solution)
      (Attempt.ensures_focus fun w hw => ?_) fun _ => Attempt.ensures_modify fun _ h => h
    -- the solution that is left is the same in both cases
    have hafter := hI w.solution hw
    refine Attempt.ensures_of (fun s _ s' hs hrun => ?_) fun s _ s' hs hrun => ?_
    · rwa [← hs, Attempt.after_of_ok hrun] at hafter
    · rwa [← hs, Attempt.after_of_error hrun] at hafter
  have hsave : Ensures I (saveBest : Act (Engine S M V α) M α Unit) (fun _ => I) I := by
    unfold saveBest
    refine ensures_total_bind (by simp) (by simp) fun before => ?_
    refine Ensures.bind (ensures_onWorld hkeep) fun _ => ?_
    refine ensures_quiet_bind (quiet_within (quiet_change _)) (fun _ h => h) fun _ => ?_
    refine ensures_total_bind (by simp) (by simp) fun s => ?_
    dsimp only
    exact ensures_quiet_when (by simp) (fun _ h => h) fun _ => ensures_total (by simp) (by simp)
  unfold saveIfBetter
  refine ensures_get_bind fun (e, w) hw => ?_
  dsimp only
  split
  · refine ensures_lift_bind (fun _ h => h ▸ hw) fun better _ => ?_
    cases better with
    | false => exact ensures_pure fun _ h => h ▸ hw
    | true => exact hsave.mono_pre fun _ h => h ▸ hw
  · exact ensures_pure fun _ h => h ▸ hw

/-- After the proposal is committed and the iteration is counted, only a best state may be kept. -/
theorem commit_ensures (hsave : KeptBySave I)
    (hok : ∀ s c m, P s → p.commit s.model = .ok c m →
      I (Solution.update { s with model := m } time))
    (herror : ∀ s failure m, P s → p.commit s.model = .error failure m → E { s with model := m })
    (hI : ∀ s, I s → E s) :
    Ensures P (commit p time : Act (Engine S M V α) M α Unit) (fun _ => I) E := by
  unfold commit
  refine ensures_total_bind (by simp) (by simp) fun before => ?_
  dsimp only
  refine Ensures.bind (Q := fun c s' => ∃ s m, P s ∧ p.commit s.model = .ok c m ∧
    s' = { s with model := m }) (ensures_onWorld ?_) fun c => ?_
  · refine Attempt.ensures_focus fun w hw => Attempt.ensures_of (fun m c m' hm hrun => ?_)
      fun m failure m' hm hrun => ?_
    · exact ⟨w.solution, m', hw, hm ▸ hrun, rfl⟩
    · exact herror w.solution failure m' hw (hm ▸ hrun)
  refine Ensures.bind (Q := fun _ => I) (count_ensures ?_) fun _ => ?_
  · rintro _ ⟨s, m, hs, hrun, rfl⟩
    exact hok s c m hs hrun
  cases c with
  | rejected delta => exact ensures_total (by simp) (by simp)
  | applied delta =>
    refine ensures_total_bind (by simp) (by simp) fun _ => ?_
    refine ensures_total_bind (by simp) (by simp) fun now => ?_
    refine ensures_total_bind (Attempt.fixes_modify fun _ => rfl) (Attempt.total_modify _)
      fun _ => ?_
    refine ensures_total_bind (Attempt.fixes_modify fun _ => rfl) (Attempt.total_modify _)
      fun _ => ?_
    exact (saveIfBetter_ensures hsave).mono (fun _ h => h) (fun _ _ h => h) hI

omit [Scalar α] in
theorem select_ensures (hS : Strategy.Restrained (M := M) S) (hrestore : KeptByRestore I)
    (hunassign : KeptByUnassign I) :
    Ensures I (select : Act (Engine S M V α) M α (Option (Proposal V α))) (fun _ => I) I :=
  (select_leads (Ψ := fun _ _ => True)
    (leads_select (K := fun _ => True) hS (fun _ _ _ => trivial) hrestore hunassign)
    (hears_of (fun _ _ _ h => h) fun _ _ h => h.2)).mono
      (fun _ _ h => ⟨trivial, h⟩) (fun _ _ _ h => h.1.2) fun _ _ h => h

theorem turn_lasting (hS : Strategy.Restrained (M := M) S) (hI : Solution.Lasting I) (stop : Bool) :
    Ensures I (turn stop time : Act (Engine S M V α) M α (Option Ending)) (fun _ => I) I := by
  have hpass : Ensures I (pass time : Act (Engine S M V α) M α Unit) (fun _ => I) I := by
    unfold pass
    refine (select_ensures hS hI.restoreBest fun _ _ m hs _ => hI.model _ m hs).bind fun p? => ?_
    cases p? with
    | none =>
      refine ensures_total_bind (by simp) (by simp) fun s => ?_
      exact ensures_total_bind (by simp) (by simp) fun _ => count_ensures fun s => hI.update s time
    | some p =>
      exact commit_ensures hI.saveBest (fun _ _ m hs _ => hI.update _ time (hI.model _ m hs))
        (fun _ _ m hs _ => hI.model _ m hs) fun _ h => h
  unfold turn
  split
  · exact ensures_pure fun _ h => h
  · refine ensures_get_bind fun (e, w) hw => ?_
    dsimp only
    split
    · exact ensures_pure fun _ h => h ▸ hw
    · have hthis : Ensures (· = w.solution) (pass time : Act (Engine S M V α) M α Unit)
          (fun _ => I) I := hpass.mono_pre fun _ h => h ▸ hw
      exact hthis.bind fun _ => ensures_pure fun _ h => h

theorem announce_ensures (hsave : KeptBySave I) (iteration : Nat) :
    Ensures I (announce iteration : Act (Engine S M V α) M α Bool) (fun _ => I) I := by
  unfold announce
  refine ensures_total_bind (Attempt.fixes_modify fun _ => rfl) (Attempt.total_modify _)
    fun _ => ?_
  refine (saveIfBetter_ensures hsave).bind fun _ => ?_
  refine ensures_total_bind (by simp) (by simp) fun s => ?_
  split
  · exact ensures_total_bind (by simp) (by simp) fun _ => ensures_pure fun _ h => h
  · exact ensures_pure fun _ h => h

theorem opening_ensures (hS : Strategy.Restrained (M := M) S) (hsave : KeptBySave I) :
    Ensures I (opening : Act (Engine S M V α) M α Bool) (fun _ => I) I := by
  rw [opening_eq]
  refine ensures_quiet_bind (quiet_within hS.init) (fun _ h => h) fun _ => ?_
  refine ensures_quiet_bind (quiet_within quiet_initExtensions) (fun _ h => h) fun _ => ?_
  refine ensures_get_bind fun (e, w) hw => ?_
  have htail : Ensures (· = w.solution)
      (announce w.solution.iteration : Act (Engine S M V α) M α Bool) (fun _ => I) I :=
    (announce_ensures hsave _).mono_pre fun _ h => h ▸ hw
  dsimp only
  split
  · refine ensures_lift_bind (fun _ h => h ▸ hw) fun total _ => ?_
    exact ensures_total_bind (by simp) (by simp) fun _ => htail
  · exact htail

/-! ## What a pass counts -/

/-- A proposal whose commit does not fail counts, whatever comes of it, and even if the state that
it leaves cannot be kept. -/
theorem commit_counts (time : α) {s : Solution M α} {c : Commit α} {m : M}
    (hrun : p.commit s.model = .ok c m) :
    Ensures (· = s) (commit p time : Act (Engine S M V α) M α Unit)
      (fun _ t => t.totalIterations = s.totalIterations + 1)
      (fun t => t.totalIterations = s.totalIterations + 1) := by
  refine commit_ensures (Solution.keptBySave_totalIterations _) (fun s' c' m' hs _ => ?_)
    (fun s' failure m' hs hrun' => ?_) fun _ h => h
  · rw [hs]
    rfl
  · rw [hs, hrun] at hrun'
    cases hrun'

theorem commit_breaks (time : α) {s : Solution M α} {failure : Failure} {m : M}
    (hrun : p.commit s.model = .error failure m) :
    Ensures (· = s) (commit p time : Act (Engine S M V α) M α Unit) (fun _ _ => False)
      (fun t => t.totalIterations = s.totalIterations) := by
  refine commit_ensures (fun _ h => h) (fun s' c' m' hs hrun' => ?_)
    (fun s' failure m' hs _ => ?_) fun _ h => h.elim
  · rw [hs, hrun] at hrun'
    cases hrun'
  · rw [hs]

variable {e e' : Engine S M V α} {s s' : Solution M α} {t : Engine S M V α × World M α}
  {w : World M α}

omit [Scalar α] in
theorem totalIterations_select (hS : Strategy.Restrained (M := M) S) (w : World M α) :
    (select.after (e, w)).2.solution.totalIterations = w.solution.totalIterations :=
  (select_ensures hS (Solution.keptByRestore_totalIterations _)
    (Solution.keptByUnassign_totalIterations _)).after rfl

theorem pass_of_select_error {failure : Failure} (h : select (e, w) = .error failure t) :
    (pass time : Act (Engine S M V α) M α Unit).after (e, w) = t :=
  Attempt.after_of_error (Attempt.bind_of_error h)

theorem pass_of_select_none (h : select (e, w) = .ok none t) :
    ((pass time : Act (Engine S M V α) M α Unit).after (e, w)).2.solution =
      t.2.solution.update time := by
  unfold pass
  rw [Attempt.after_bind_of_ok h]
  rfl

theorem pass_of_select_some (h : select (e, w) = .ok (some p) t) :
    (pass time : Act (Engine S M V α) M α Unit).after (e, w) = (commit p time).after t := by
  unfold pass
  rw [Attempt.after_bind_of_ok h]

/-! ## Limits -/

theorem SaveStep.totalIterations (h : SaveStep e s e' s') :
    s'.totalIterations = s.totalIterations ∧ e'.termination = e.termination := by
  cases h with
  | skipped => exact ⟨rfl, rfl⟩
  | saved _ hsaved =>
    obtain ⟨b, -, rfl⟩ := hsaved
    exact ⟨rfl, rfl⟩

theorem SaveStep.model_eq (h : SaveStep e s e' s') :
    s'.model = s.model ∨ s'.model = Model.saveBest s.model := by
  cases h with
  | skipped => exact .inl rfl
  | saved _ hsaved =>
    obtain ⟨b, -, rfl⟩ := hsaved
    exact .inr rfl

/-- A pass that does not fail counts an update and leaves the termination condition alone. -/
theorem Passed.totalIterations {Ψ : M → Proposal V α → Prop} (h : Passed Ψ time e s e' s') :
    s'.totalIterations = s.totalIterations + 1 ∧ e'.termination = e.termination := by
  cases h with
  | idle => exact ⟨rfl, rfl⟩
  | committed _ h =>
    cases h with
    | applied _ hsave => exact hsave.totalIterations
    | rejected _ => exact ⟨rfl, rfl⟩

/-- A pass with so many updates and some termination condition. -/
theorem pass_counting (hS : Strategy.Restrained (M := M) S) (condition : Termination) (n : Nat)
    (time : α) :
    Leads (fun e s => e.termination = condition ∧ s.totalIterations = n)
      (pass time : Act (Engine S M V α) M α Unit)
      (fun _ e s => e.termination = condition ∧ s.totalIterations = n + 1) (fun _ _ => True) := by
  have hselect := leads_select (K := fun e : Engine S M V α => e.termination = condition) hS
    (fun _ _ h => h) (Solution.keptByRestore_totalIterations n)
    (Solution.keptByUnassign_totalIterations n)
  refine (pass_leads time (Ψ := fun _ _ => True) (hselect.mono_error fun _ _ _ => trivial)
    (hears_of (fun _ _ _ h => h) fun _ _ _ => trivial) fun _ _ _ _ _ _ _ _ => trivial).mono_post ?_
  rintro _ e' s' ⟨e, s, ⟨he, hs⟩, h⟩
  obtain ⟨htotal, htermination⟩ := h.totalIterations
  exact ⟨htermination.trans he, by rw [htotal, hs]⟩

/-- A turn is a pass if nothing ends the search. -/
theorem turn_eq_pass (time : α) (h : e.termination.holds w.solution = false) :
    turn (S := S) (V := V) false time (e, w) =
      (pass (S := S) (V := V) time >>= fun _ => pure (none : Option Ending)) (e, w) := by
  unfold turn
  have hget : (get : Act (Engine S M V α) M α _) (e, w) = .ok (e, w) (e, w) := rfl
  rw [if_neg Bool.false_ne_true, Attempt.bind_of_ok hget]
  dsimp only
  rw [h, if_neg Bool.false_ne_true]

theorem after_turn (h : e.termination.holds w.solution = false) :
    (turn false time : Act (Engine S M V α) M α (Option Ending)).after (e, w) =
      (pass time : Act (Engine S M V α) M α Unit).after (e, w) := by
  rw [← Attempt.after_bind_pure (x := pass time) (b := (none : Option Ending))]
  unfold Attempt.after
  rw [turn_eq_pass time h]

theorem turn_eq_done (time : α) (h : e.termination.holds w.solution = true) :
    turn (S := S) (V := V) false time (e, w) = .ok (some .done) (e, w) := by
  unfold turn
  have hget : (get : Act (Engine S M V α) M α _) (e, w) = .ok (e, w) (e, w) := rfl
  rw [if_neg Bool.false_ne_true, Attempt.bind_of_ok hget]
  dsimp only
  rw [h, if_pos rfl]
  rfl

/-- The opening counts no update, and it answers whether there is a variable. The model may have
kept its assignment by then. -/
theorem opening_counting (hS : Strategy.Restrained (M := M) S) (condition : Termination) (n : Nat)
    (m : M) :
    Leads (fun e s => e.termination = condition ∧ s.totalIterations = n ∧ s.model = m)
      (opening : Act (Engine S M V α) M α Bool)
      (fun nothing e s => (nothing = true ↔ Model.variableCount s.model = 0) ∧
        (s.model = m ∨ s.model = Model.saveBest m) ∧ e.termination = condition ∧
        s.totalIterations = n)
      (fun _ _ => True) := by
  let I (s : Solution M α) : Prop := s.totalIterations = n ∧ s.model = m
  have hinit := leads_init (K := fun e : Engine S M V α => e.termination = condition) hS
    (fun _ _ h => h) I
  have hextensions := initExtensions_leads (M := M) (α := α) (I := I)
    (F := fun e : Engine S M V α => e.termination = condition) fun _ _ h => h
  refine (opening_leads (hinit.mono_error fun _ _ _ => trivial)
    (hextensions.mono_error fun _ _ _ => trivial) (fun _ _ _ _ => trivial)
    fun _ _ _ _ _ _ => trivial).mono_post ?_
  rintro nothing e' s' ⟨⟨e, s, ⟨he, hs, hmodel⟩, hsave⟩, hnothing⟩
  obtain ⟨htotal, htermination⟩ := hsave.totalIterations
  exact ⟨hnothing, hmodel ▸ hsave.model_eq, htermination.trans he, htotal.trans hs⟩

end Engine

/-! ## Searches -/

namespace Solver

variable {S : Type} [Strategy S M V α] {s s' : Solver S M V α} {e : Engine S M V α} {k n : Nat}

/-- Whatever a search does to its solution keeps a lasting property. -/
theorem holds_of_lasting {I : Solution M α → Prop} {w : Worker S M V α}
    (hS : Strategy.Restrained (M := M) S) (hI : Solution.Lasting I) (hworker : s.worker = some w)
    (h : I s.world.solution) (hsteps : Steps s s') : I s'.world.solution := by
  have hstart : s.During (fun _ => I) (fun _ => I) (fun _ => I) := by
    intro w _
    cases w.stage <;> exact h
  have hlater := hstart.steps (Engine.opening_ensures hS hI.saveBest).leads (fun stop time =>
    (Engine.turn_lasting hS hI stop).leads.mono_post fun ending? _ _ h => by
      cases ending? <;> exact h) hsteps
  obtain ⟨w', hw'⟩ := worker_of_steps hworker hsteps
  exact hlater.solution hw' (fun _ _ h => h) (fun _ _ h => h) fun _ _ h => h

/-- What the strategy of an engine selects, before the guards are asked. -/
abbrev selects (s : Solver S M V α) (e : Engine S M V α) :
    EStateM.Result Failure (Engine S M V α × World M α) (Option (Proposal V α)) :=
  Engine.onStrategy Strategy.select (e, s.world)

/-- What the pass that is next adds to the number of updates, by what comes of its selection, of the
question to the guards and of its commit. -/
structure CountsPass (s : Solver S M V α) (e : Engine S M V α) : Prop where
  selection_fails : ∀ failure t, s.selects e = .error failure t →
    s.work.world.solution.totalIterations = s.world.solution.totalIterations
  no_proposal : ∀ t, s.selects e = .ok none t →
    s.work.world.solution.totalIterations = s.world.solution.totalIterations + 1
  guard_fails : ∀ p t fault, s.selects e = .ok (some p) t →
    (t.1.observers.ask t.2.solution.iteration p).1 = .error fault →
    s.work.world.solution.totalIterations = s.world.solution.totalIterations
  vetoed : ∀ p t, s.selects e = .ok (some p) t →
    (t.1.observers.ask t.2.solution.iteration p).1 = .ok false →
    s.work.world.solution.totalIterations = s.world.solution.totalIterations + 1
  commit_fails : ∀ p t failure m, s.selects e = .ok (some p) t →
    (t.1.observers.ask t.2.solution.iteration p).1 = .ok true →
    p.commit t.2.solution.model = .error failure m →
    s.work.world.solution.totalIterations = s.world.solution.totalIterations
  committed : ∀ p t c m, s.selects e = .ok (some p) t →
    (t.1.observers.ask t.2.solution.iteration p).1 = .ok true →
    p.commit t.2.solution.model = .ok c m →
    s.work.world.solution.totalIterations = s.world.solution.totalIterations + 1

/-- The end of a search leaves the solution as the last turn left it. -/
theorem solution_work_of_passing (hworker : s.worker = some ⟨e, .passing k⟩) :
    s.work.world.solution = ((Engine.turn s.stopRequested (s.clock k) :
      Act (Engine S M V α) M α (Option Ending)).after (e, s.world)).2.solution := by
  cases hrun : (Engine.turn s.stopRequested (s.clock k) (e, s.world) :
      EStateM.Result Failure _ (Option Ending)) with
  | error failure t =>
    rw [work_of_turn_error hworker hrun, Attempt.after_of_error hrun, solution_workerFails]
  | ok ending? t =>
    rw [Attempt.after_of_ok hrun]
    cases ending? with
    | none => rw [work_of_turn_none hworker hrun]
    | some ending => rw [work_of_turn_some hworker hrun, solution_workerCloses]

theorem work_of_passing (hworker : s.worker = some ⟨e, .passing k⟩)
    (hstop : s.stopRequested = false)
    (hgoes : e.termination.holds s.world.solution = false) :
    s.work.world.solution = ((Engine.pass (s.clock k) :
      Act (Engine S M V α) M α Unit).after (e, s.world)).2.solution := by
  rw [solution_work_of_passing hworker, hstop, Engine.after_turn hgoes]

/-- A pass counts one update, unless its selection or its commit fails or a guard breaks off. -/
theorem countsPass (hS : Strategy.Restrained (M := M) S)
    (hworker : s.worker = some ⟨e, .passing k⟩) (hstop : s.stopRequested = false)
    (hgoes : e.termination.holds s.world.solution = false) : s.CountsPass e := by
  have hwork := work_of_passing hworker hstop hgoes
  -- a selection that goes back to the best state leaves the number of updates alone
  have hselect {r : EStateM.Result Failure (Engine S M V α × World M α) (Option (Proposal V α))}
      (h : Engine.select (e, s.world) = r) : (match r with
        | .ok _ t => t.2.solution.totalIterations
        | .error _ t => t.2.solution.totalIterations) = s.world.solution.totalIterations := by
    have hafter := Engine.totalIterations_select (e := e) hS s.world
    unfold Attempt.after at hafter
    rw [h] at hafter
    cases r <;> exact hafter
  -- a selection without a proposal, on its own or because of a veto
  have hnone {t} (h : Engine.select (e, s.world) = .ok none t) :
      s.work.world.solution.totalIterations = s.world.solution.totalIterations + 1 := by
    rw [hwork, Engine.pass_of_select_none h]
    exact congrArg (· + 1) (hselect h)
  -- a selection that fails, on its own or because a guard breaks off
  have hfails {failure t} (h : Engine.select (e, s.world) = .error failure t) :
      s.work.world.solution.totalIterations = s.world.solution.totalIterations := by
    rw [hwork, Engine.pass_of_select_error h]
    exact hselect h
  refine ⟨fun failure t h => hfails (Engine.select_of_error h),
    fun t h => hnone (Engine.select_of_none h), fun p t fault h hanswer => ?_,
    fun p t h hanswer => ?_, fun p t failure m h hanswer hcommit => ?_,
    fun p t c m h hanswer hcommit => ?_⟩ <;> rw [Observers.ask_fst] at hanswer
  · exact hfails (Engine.select_of_break h hanswer)
  · exact hnone (Engine.select_of_veto h hanswer)
  · have hkept := Engine.select_of_kept h hanswer
    have hbreaks := Engine.commit_breaks (S := S) (s.clock k) hcommit
    rw [hwork, Engine.pass_of_select_some hkept]
    exact ((hbreaks.mono_post fun _ _ h => h.elim).after (t := Engine.shown t p) rfl).trans
      (hselect hkept)
  · have hkept := Engine.select_of_kept h hanswer
    have hcounts := Engine.commit_counts (S := S) (s.clock k) hcommit
    rw [hwork, Engine.pass_of_select_some hkept]
    exact (hcounts.after (t := Engine.shown t p) rfl).trans (congrArg (· + 1) (hselect hkept))

/-- The search has just failed. -/
def Fails (s : Solver S M V α) : Prop :=
  ∃ e, s.worker = some ⟨e, .closed .failed⟩

/-- The next step is pass number `k + 1`, unless the search is to end. Nobody asked it to stop, and
it has counted `n` updates. -/
structure Counting (condition : Termination) (k n : Nat) (s : Solver S M V α) : Prop where
  worker : ∃ e, s.worker = some ⟨e, .passing (k + 1)⟩ ∧ e.termination = condition
  stopRequested : s.stopRequested = false
  updates : s.world.solution.totalIterations = n

omit [Scalar α] [Model M V α] [Strategy S M V α] in
theorem fails_workerFails (engine : Engine S M V α) (world : World M α) (failure : Failure) :
    (s.workerFails engine world failure).Fails := by
  rw [workerFails_eq]
  exact ⟨_, rfl⟩

/-- The opening leads to the first pass. -/
theorem counting_opening (hS : Strategy.Restrained (M := M) S)
    (hworker : s.worker = some ⟨e, .opening⟩) (hstop : s.stopRequested = false)
    (hcount : Model.variableCount s.world.solution.model ≠ 0)
    (hsaved : Model.variableCount (Model.saveBest s.world.solution.model) ≠ 0) :
    s.work.Counting e.termination 0 s.world.solution.totalIterations ∨ s.work.Fails := by
  have hpost := Engine.opening_counting hS e.termination s.world.solution.totalIterations _
    (e, s.world) ⟨rfl, rfl, rfl⟩
  cases hrun : (Engine.opening (e, s.world) : EStateM.Result Failure _ Bool) with
  | error failure t =>
    rw [work_of_opening_error hworker hrun]
    exact .inr (fails_workerFails t.1 t.2 failure)
  | ok nothing t =>
    rw [hrun] at hpost
    rw [work_of_opening_ok hworker hrun]
    obtain ⟨hnothing, hmodel, htermination, htotal⟩ := hpost
    have hsome : nothing = false := by
      refine Bool.eq_false_iff.2 fun h => ?_
      rcases hmodel with hmodel | hmodel
      · exact hcount (hmodel ▸ hnothing.1 h)
      · exact hsaved (hmodel ▸ hnothing.1 h)
    exact .inl ⟨⟨t.1, rfl, htermination⟩, by simp [hstop, hsome], htotal⟩

/-- While the limit is not reached, a pass leads to the next one. -/
theorem counting_work {limit : Nat} (hS : Strategy.Restrained (M := M) S)
    (h : s.Counting [.iterations limit] k n) (hlimit : n < limit) :
    s.work.Counting [.iterations limit] (k + 1) (n + 1) ∨ s.work.Fails := by
  obtain ⟨⟨e, hworker, htermination⟩, hstop, htotal⟩ := h
  have hgoes : e.termination.holds s.world.solution = false := by
    simp [htermination, Termination.holds, Condition.holds, htotal, hlimit]
  have hpost := Engine.pass_counting hS [.iterations limit] n (s.clock (k + 1))
    (e, s.world) ⟨htermination, htotal⟩
  have hturn := Engine.turn_eq_pass (s.clock (k + 1)) hgoes
  rw [← hstop] at hturn
  cases hrun : (Engine.pass (s.clock (k + 1)) (e, s.world) : EStateM.Result Failure _ Unit) with
  | error failure t =>
    rw [work_of_turn_error hworker (hturn.trans (Attempt.bind_of_error hrun))]
    exact .inr (fails_workerFails t.1 t.2 failure)
  | ok _ t =>
    rw [hrun] at hpost
    rw [work_of_turn_none hworker (hturn.trans (Attempt.bind_of_ok hrun))]
    exact .inl ⟨⟨t.1, rfl, hpost.1⟩, hstop, hpost.2⟩

/-- Once the limit is reached the search is done. -/
theorem closed_work {limit : Nat} (h : s.Counting [.iterations limit] k n) (hlimit : limit ≤ n) :
    ∃ e, s.work.worker = some ⟨e, .closed .done⟩ ∧ s.work.world.solution.totalIterations = n := by
  obtain ⟨⟨e, hworker, htermination⟩, hstop, htotal⟩ := h
  have hdone : e.termination.holds s.world.solution = true := by
    simp [htermination, Termination.holds, Condition.holds, htotal, hlimit]
  have hturn := Engine.turn_eq_done (s.clock (k + 1)) hdone
  rw [← hstop] at hturn
  rw [work_of_turn_some hworker hturn, solution_workerCloses, workerCloses_eq]
  exact ⟨_, rfl, htotal⟩

/-- The passes of a search that does not fail, as long as the limit is not reached. -/
theorem counting_iterate {limit : Nat} (hS : Strategy.Restrained (M := M) S)
    (h : s.Counting [.iterations limit] 0 n) (hfails : ∀ m, ¬ (work^[m] s).Fails)
    (hk : k ≤ limit - n) : (work^[k] s).Counting [.iterations limit] k (n + k) := by
  -- by induction on the number of passes; each of them counts one update
  induction k with
  | zero => exact h
  | succ k ih =>
    have hbefore := ih (Nat.le_of_succ_le hk)
    have hnext := hfails (k + 1)
    rw [Function.iterate_succ_apply'] at hnext ⊢
    exact (counting_work hS hbefore (by omega)).resolve_right hnext

/-! ## Waiting for the end -/

theorem work_of_not_isWorking (h : s.isWorking = false) : s.work = s := by
  cases hworker : s.worker with
  | none => exact work_of_none hworker
  | some w =>
    obtain ⟨e, stage⟩ := w
    have hstage : stage = .ended := by
      simpa [isWorking, hworker] using h
    exact work_of_ended (hstage ▸ hworker)

/-- The owner waits for as many steps as the worker makes. -/
theorem workUntil_of_iterate {m fuel : Nat} (hend : (work^[m] s).isWorking = false)
    (hfuel : m < fuel) : workUntil (fun _ => false) fuel s = some (work^[m] s) := by
  induction m generalizing s fuel with
  | zero =>
    obtain ⟨fuel, rfl⟩ := Nat.exists_eq_add_of_lt hfuel
    unfold workUntil
    rw [Function.iterate_zero_apply] at hend
    simp [hend]
  | succ m ih =>
    obtain ⟨fuel, rfl⟩ := Nat.exists_eq_succ_of_ne_zero (Nat.ne_zero_of_lt hfuel)
    rw [Function.iterate_succ_apply] at hend ⊢
    have hnext := ih hend (Nat.lt_of_succ_lt_succ hfuel)
    unfold workUntil
    cases hworking : s.isWorking with
    | true => simpa using hnext
    | false =>
      -- nothing happens any more
      rw [work_of_not_isWorking hworking, Function.iterate_fixed (work_of_not_isWorking hworking)]
      simp

theorem solve_of_iterate {m fuel : Nat} (hstart : s.start = .ok s')
    (hend : (work^[m] s').isWorking = false) (hfuel : m < fuel) :
    s.solve fuel = .ok (some (work^[m] s').takeBack) := by
  have hjoin : join fuel s' = some (work^[m] s').takeBack := by
    unfold join
    rw [workUntil_of_iterate hend hfuel]
    rfl
  unfold solve
  rw [hstart, ← hjoin]
  rfl

/-- The iterations of a search with any strategy, generators and observers, whatever the guards
remember, on any solution that the operations on solutions lead to:

* a pass counts exactly one update if its selection succeeds, no guard breaks off and its commit, if
  there is one, does not fail, and none otherwise;
* the iteration is never above the number of updates;
* if only a limit on the updates ends the search, and there is a variable, also after the model has
  kept its assignment, and no failure, the search is done after as many passes as are left up to the
  limit, and it has counted as many updates. -/
theorem iteration_accounting {G : Type} [MoveGenerator G M V α]
    {s s₀ : Solver (AnyStrategy G α) M V α} (hsolution : s.world.solution.Attained)
    (hstart : s.start = .ok s₀) :
    (∀ (s₁ : Solver (AnyStrategy G α) M V α) e k, s₁.worker = some ⟨e, .passing k⟩ →
      s₁.stopRequested = false → e.termination.holds s₁.world.solution = false →
      s₁.CountsPass e) ∧
    (∀ s₁, Steps s₀ s₁ → s₁.world.solution.Attained ∧
      s₁.world.solution.iteration ≤ s₁.world.solution.totalIterations) ∧
    ∀ e limit, s.engine = some e → e.termination = [.iterations limit] →
      Model.variableCount s.world.solution.model ≠ 0 →
      Model.variableCount (Model.saveBest s.world.solution.model) ≠ 0 →
      (∀ m, ¬ (work^[m] s₀).Fails) →
      let before := s.world.solution.totalIterations
      (∀ k ≤ limit - before,
        (work^[k + 1] s₀).Counting [.iterations limit] k (before + k)) ∧
      (∃ e', (work^[limit - before + 2] s₀).worker = some ⟨e', .closed .done⟩) ∧
      ∀ fuel, limit - before + 4 ≤ fuel → ∃ s', s.solve fuel = .ok (some s') ∧ s'.state = .done ∧
        s'.world.solution.totalIterations = max limit before := by
  have hS : Strategy.Restrained (M := M) (AnyStrategy G α) := AnyStrategy.restrained
  obtain ⟨e₀, hengine, hworker, hworld⟩ := worker_of_start hstart
  refine ⟨fun s₁ e k hworker hstop hgoes => countsPass hS hworker hstop hgoes,
    fun s₁ hsteps => ?_, fun e limit he htermination hcount hsaved hfails => ?_⟩
  · have hattained := holds_of_lasting hS Solution.lasting_attained hworker
      (hworld ▸ hsolution) hsteps
    exact ⟨hattained, hattained.counted.iteration⟩
  · cases he.symm.trans hengine
    intro before
    have hopened : (work s₀).Counting [.iterations limit] 0 before := by
      have hopened := counting_opening hS hworker (stopRequested_of_start hstart)
        (by rw [hworld]; exact hcount) (by rw [hworld]; exact hsaved)
      rw [htermination, hworld] at hopened
      exact hopened.resolve_right (hfails 1)
    have hpasses (k : Nat) (hk : k ≤ limit - before) :
        (work^[k + 1] s₀).Counting [.iterations limit] k (before + k) :=
      counting_iterate hS hopened (fun m => hfails (m + 1)) hk
    obtain ⟨e', hclosed, htotal⟩ := closed_work (hpasses _ (Nat.le_refl _)) (by omega)
    rw [← Function.iterate_succ_apply' work] at hclosed htotal
    refine ⟨hpasses, ⟨e', hclosed⟩, fun fuel hfuel => ?_⟩
    have hlast := work_of_closed hclosed
    rw [← Function.iterate_succ_apply' work] at hlast
    have hend : (work^[limit - before + 3] s₀).isWorking = false := by
      rw [hlast]
      rfl
    refine ⟨_, solve_of_iterate hstart hend (Nat.lt_of_succ_le hfuel), ?_, ?_⟩
    · rw [hlast]
      rfl
    · rw [hlast]
      exact htotal.trans (by omega)

/-- The climber with a limit of two updates. -/
def bounded : Solver (AnyStrategy (Generator Empty ℚ) ℚ) (Penalty ℚ) Nat ℚ :=
  { climber with engine := climber.engine.map fun e => { e with termination := [.iterations 2] } }

/-- The climber with a limit before the opening of its search. -/
def bounding : Solver (AnyStrategy (Generator Empty ℚ) ℚ) (Penalty ℚ) Nat ℚ :=
  bounded.start.toOption.getD bounded

theorem not_fails_bounding (m : Nat) : ¬ (work^[m] bounding).Fails := by
  have hstage (m : Nat) : m ≤ 5 →
      (work^[m] bounding).worker.map Worker.stage ≠ some (.closed .failed) := by
    revert m
    decide +kernel
  have hend : (work^[5] bounding).isWorking = false := by decide +kernel
  have hlast : work^[m] bounding = work^[min m 5] bounding := by
    rcases Nat.le_total m 5 with h | h
    · rw [Nat.min_eq_left h]
    · obtain ⟨more, rfl⟩ := Nat.exists_eq_add_of_le' h
      rw [Nat.min_eq_right h, Function.iterate_add_apply,
        Function.iterate_fixed (work_of_not_isWorking hend)]
  rw [hlast]
  rintro ⟨e, hworker⟩
  exact hstage _ (Nat.min_le_right m 5) (by rw [hworker]; rfl)

/-- The climber makes two passes and is done. -/
theorem iteration_accounting_bounded :
    bounded.world.solution.Attained ∧ bounded.start = .ok bounding ∧
      (∀ m, ¬ (work^[m] bounding).Fails) ∧
      (work^[2] bounding).world.solution.iteration ≤
        (work^[2] bounding).world.solution.totalIterations ∧
      (work^[2] bounding).Counting [.iterations 2] 1 1 ∧
      ∃ s', bounded.solve 6 = .ok (some s') ∧ s'.state = .done ∧
        s'.world.solution.totalIterations = 2 := by
  have hattained : bounded.world.solution.Attained := .ofModel _
  obtain ⟨-, hordered, hlimited⟩ :=
    iteration_accounting hattained (show bounded.start = .ok bounding from rfl)
  obtain ⟨hpasses, -, hsolve⟩ :=
    hlimited _ 2 rfl rfl (by decide +kernel) (by decide +kernel) not_fails_bounding
  exact ⟨hattained, rfl, not_fails_bounding, (hordered _ (steps_iterate bounding 2)).2,
    hpasses 1 (by decide +kernel), hsolve 6 (by decide +kernel)⟩

/-- A climber whose only generator takes a variable its value that does not exist. -/
def astray : Solver (AnyStrategy (Scripted Nat ℚ) ℚ) (Penalty ℚ) Nat ℚ :=
  of (.ofSolution (.ofModel ⟨[[0, 1]], [some 0], none, 0⟩) (.standard 0) none)
    (.of (.basic (.hillClimbing (.of
      ⟨[.of "far" (.of (.unassign 5 0)) 0], .fresh 1, {}, false⟩ 10))))
    fun _ => 0

/-- The stray climber after the opening of its search. -/
def straying : Solver (AnyStrategy (Scripted Nat ℚ) ℚ) (Penalty ℚ) Nat ℚ :=
  (astray.start.toOption.getD astray).work

/-- The climber with a limit of two updates and some guards. -/
def guarded (guards : List (Guard Nat ℚ)) :
    Solver (AnyStrategy (Generator Empty ℚ) ℚ) (Penalty ℚ) Nat ℚ :=
  { bounded with engine := bounded.engine.map fun e => { e with observers := ⟨guards, []⟩ } }

/-- The guarded climber before the opening of its search. -/
def guarding (guards : List (Guard Nat ℚ)) :
    Solver (AnyStrategy (Generator Empty ℚ) ℚ) (Penalty ℚ) Nat ℚ :=
  (guarded guards).start.toOption.getD (guarded guards)

/-- A guard that breaks off when it is asked. -/
def fragile : Guard Nat ℚ :=
  { name := none, rule := fun _ _ _ => .error (.raised "broken") }

/-- A pass of which the strategy selects a proposal, but which does not count one update. -/
def Miscounts (s : Solver S M V α) : Prop :=
  ∃ e k p t, s.worker = some ⟨e, .passing k⟩ ∧ s.stopRequested = false ∧
    e.termination.holds s.world.solution = false ∧ s.selects e = .ok (some p) t ∧
    s.work.world.solution.totalIterations ≠ s.world.solution.totalIterations + 1

theorem miscounts_of {w : Worker S M V α} (hworker : s.worker = some w)
    (hpass : w.stage = .passing k) (hstop : s.stopRequested = false)
    (hgoes : w.engine.termination.holds s.world.solution = false)
    (hselects : (match s.selects w.engine with
      | .ok (some _) _ => true
      | _ => false) = true)
    (hcount : s.work.world.solution.totalIterations ≠ s.world.solution.totalIterations + 1) :
    s.Miscounts := by
  obtain ⟨e, stage⟩ := w
  obtain rfl : stage = .passing k := hpass
  split at hselects
  · rename_i p t hrun
    exact ⟨e, k, p, t, hworker, hstop, hgoes, hrun, hcount⟩
  · cases hselects

/-- Neither a commit that breaks off nor a guard that does counts an update. -/
theorem uncounted_commit : straying.Miscounts ∧ (guarding [fragile]).work.Miscounts := by
  refine ⟨miscounts_of (k := 1) rfl ?_ ?_ ?_ ?_ ?_, miscounts_of (k := 1) rfl ?_ ?_ ?_ ?_ ?_⟩ <;>
    decide +kernel

end Solver

end LocalSearch
