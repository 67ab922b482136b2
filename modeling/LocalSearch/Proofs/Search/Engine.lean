import LocalSearch.Engine
import LocalSearch.Proofs.Search.Observers
import LocalSearch.Proofs.Selection.Basic
/-!
# What the operations of an engine do to the solution

* `Engine.Saved`: the solution after its state was kept as the best one.
* `Engine.SaveStep`: what comes of an opportunity to keep the state as the best one. The state is
  kept if the limit on unassigned variables allows it and the comparator finds it better, and
  otherwise the solution stays as it is.
* `Engine.Passed`: what comes of a pass.
* `Engine.pass_leads`, `Engine.opening_leads`: these are all the ways in which a pass and the
  opening of a search end without a failure. Both also say what a failure comes from.
-/

namespace LocalSearch

open Act

variable {S M V α : Type} [Scalar α] [Model M V α]

/-! ## Keeping the state -/

/-- The solution after its state was kept as the best one. -/
def Solution.Saved (s s' : Solution M α) : Prop :=
  ∃ best, Solution.snapshot { s with model := Model.saveBest s.model } = .ok best ∧
    s' = { s with model := Model.saveBest s.model, best := some best, cleared := false }

/-- No snapshot can be taken of the state once it is kept. -/
def Solution.Unrecordable (s : Solution M α) : Prop :=
  ∀ best, Solution.snapshot { s with model := Model.saveBest s.model } ≠ .ok best

omit [Scalar α] [Model M V α] in
/-- The best state is the same, and the iteration was not taken back. -/
def Solution.Onward (s s' : Solution M α) : Prop :=
  s'.best = s.best ∧ s.iteration ≤ s'.iteration

omit [Scalar α] [Model M V α] in
theorem Solution.Onward.refl (s : Solution M α) : s.Onward s :=
  ⟨rfl, Nat.le_refl _⟩

/-- What a snapshot records. -/
theorem Solution.of_snapshot_eq_ok {s : Solution M α} {b : Snapshot α} (h : s.snapshot = .ok b) :
    b.iteration = s.iteration ∧ Model.totalValue s.model = .ok b.value ∧
      b.complete = Model.isComplete s.model := by
  obtain ⟨value, hvalue, h⟩ := bind_eq_ok_iff.1 h
  obtain ⟨info, -, h⟩ := bind_eq_ok_iff.1 h
  cases h
  exact ⟨rfl, hvalue, rfl⟩

/-- A state can be recorded if its total value and its diagnostics are defined. -/
theorem Solution.exists_snapshot {s : Solution M α} {total : α} {info : Dictionary}
    (htotal : Model.totalValue s.model = .ok total) (hinfo : Model.info s.model = .ok info) :
    ∃ best, s.snapshot = .ok best :=
  ⟨_, bind_eq_ok_iff.2 ⟨total, htotal,
    bind_eq_ok_iff.2 ⟨_, map_eq_ok_iff.2 ⟨info, hinfo, rfl⟩, rfl⟩⟩⟩

/-- A state is better than the best one if fewer variables are unassigned, or as many and the total
value is lower. -/
theorem Comparator.general_isBetter {s : Solution M α} {b : Snapshot α} (hbest : s.best = some b)
    (h : Comparator.general.isBetter s = .ok true) :
    Model.unassignedCount s.model < Model.bestUnassignedCount s.model ∨
      Model.unassignedCount s.model = Model.bestUnassignedCount s.model ∧
        ∃ value, Model.totalValue s.model = .ok value ∧ value < b.value := by
  simp only [general, hbest] at h
  split at h
  · rename_i hequal
    obtain ⟨value, hvalue, h⟩ := bind_eq_ok_iff.1 h
    exact .inr ⟨hequal, value, hvalue, by simpa using h⟩
  · exact .inl (by simpa using h)

/-- With a total value it can be told whether a state is better than the best one. -/
theorem Comparator.exists_general_isBetter {s : Solution M α} {total : α}
    (h : Model.totalValue s.model = .ok total) : ∃ better, general.isBetter s = .ok better := by
  unfold general
  dsimp only
  cases s.best with
  | none => exact ⟨_, rfl⟩
  | some b =>
    dsimp only
    split
    · exact ⟨_, bind_eq_ok_iff.2 ⟨total, h, rfl⟩⟩
    · exact ⟨_, rfl⟩

/-- The model keeps its assignment in any case; the best state is replaced if it can be recorded. -/
theorem Solution.saveBest_leaves (s : Solution M α) :
    Attempt.Ensures (· = s) (Solution.saveBest : Attempt (Solution M α) Unit)
      (fun _ s' => s.Saved s')
      (fun s' => s' = { s with model := Model.saveBest s.model } ∧ s.Unrecordable) := by
  unfold Solution.saveBest
  refine Attempt.Ensures.bind (Q := fun _ t => t = { s with model := Model.saveBest s.model })
    (Attempt.ensures_modify fun t ht => by rw [ht]) fun _ => ?_
  refine Attempt.ensures_get_bind fun t ht => ?_
  refine Attempt.ensures_lift_bind_or (fun _ hnone h => ?_) fun best hbest => ?_
  · exact ⟨h.trans ht, fun best hbest => hnone best (by rw [ht, hbest])⟩
  refine Attempt.ensures_modify fun t' ht' => ⟨best, ?_, ?_⟩
  · rw [← ht, hbest]
  · rw [ht', ht]

theorem Solution.saveBest_ensures (s : Solution M α) :
    Attempt.Ensures (· = s) (Solution.saveBest : Attempt (Solution M α) Unit)
      (fun _ s' => s.Saved s') (fun s' => s.Onward s' ∧ s.Unrecordable) :=
  (Solution.saveBest_leaves s).mono (fun _ h => h) (fun _ _ h => h) fun _ ⟨hs, hnone⟩ =>
    ⟨hs ▸ ⟨rfl, Nat.le_refl _⟩, hnone⟩

namespace Engine

/-- Whether the state is to be kept as the best one. -/
def Due (e : Engine S M V α) (s : Solution M α) : Prop :=
  GeneralConfig.withinLimit e.saveBestUnassigned (Model.unassignedCount s.model) = true ∧
    e.comparator.isBetter s = .ok true

/-- The state cannot be compared with the best one, or cannot be recorded. -/
def Unsavable (e : Engine S M V α) (s : Solution M α) : Prop :=
  (∀ better, e.comparator.isBetter s ≠ .ok better) ∨ s.Unrecordable

variable [Strategy S M V α]

theorem saveBest_leads (e : Engine S M V α) (s : Solution M α) :
    Leads (At e s) (saveBest : Act (Engine S M V α) M α Unit)
      (fun _ e' s' => e' = { e with strategy := Strategy.bestSaved M e.strategy } ∧ s.Saved s')
      (fun e' s' => e' = e ∧ s.Onward s' ∧ s.Unrecordable) := by
  have hkeep : Attempt.Ensures (fun w => w.solution = s) (World.saveBest : Attempt (World M α) Unit)
      (fun _ w => s.Saved w.solution) (fun w => s.Onward w.solution ∧ s.Unrecordable) := by
    unfold World.saveBest
    refine Attempt.Ensures.bind (Q := fun _ w => s.Saved w.solution)
      (Attempt.ensures_focus fun w hw => ?_) fun _ => Attempt.ensures_modify fun _ h => h
    exact hw ▸ Solution.saveBest_ensures w.solution
  unfold saveBest
  refine leads_solution_bind_at ?_
  refine Leads.bind (Q := fun _ e' s' => e' = e ∧ s.Saved s') (leads_onWorld fun e' => ?_) fun _ => ?_
  · exact Attempt.ensures_of (fun w _ w' ⟨he, hs⟩ hrun => ⟨he, hkeep.of_ok hs hrun⟩)
      fun w _ w' ⟨he, hs⟩ hrun => ⟨he, hkeep.of_error hs hrun⟩
  refine Leads.bind (Q := fun _ e' s' =>
      e' = { e with strategy := Strategy.bestSaved M e.strategy } ∧ s.Saved s')
    -- the strategy is told after the state was kept
    (leads_within fun e' s' ⟨he, hs⟩ => leads_change fun t s'' ⟨ht, hs'⟩ => ?_) fun _ => ?_
  · rw [he, ht, he, hs']
    exact ⟨rfl, hs⟩
  refine leads_solution_bind_any fun s' => ?_
  dsimp only
  exact leads_report_when fun _ => leads_report fun _ _ h => h

/-- What comes of an opportunity to keep the state as the best one. -/
inductive SaveStep (e : Engine S M V α) (s : Solution M α) :
    Engine S M V α → Solution M α → Prop
  | skipped (hdue : ¬ e.Due s) : SaveStep e s e s
  | saved {s' : Solution M α} (hdue : e.Due s) (hsaved : s.Saved s') :
    SaveStep e s { e with strategy := Strategy.bestSaved M e.strategy } s'

theorem saveIfBetter_leads (e : Engine S M V α) (s : Solution M α) :
    Leads (At e s) (saveIfBetter : Act (Engine S M V α) M α Unit) (fun _ => SaveStep e s)
      (fun e' s' => e' = e ∧ s.Onward s' ∧ e.Unsavable s) := by
  have hskip (hdue : ¬ e.Due s) : Leads (At e s) (pure () : Act (Engine S M V α) M α Unit)
      (fun _ => SaveStep e s) (fun e' s' => e' = e ∧ s.Onward s' ∧ e.Unsavable s) :=
    leads_pure fun _ _ ⟨he, hs⟩ => by rw [he, hs]; exact .skipped hdue
  unfold saveIfBetter
  refine leads_get_bind fun e' w ⟨he, hs⟩ => ?_
  subst he hs
  dsimp only
  split
  · rename_i hlimit
    refine leads_lift_bind_or (fun _ _ hnone h => ?_) fun better hbetter => ?_
    · exact ⟨h.1, h.2 ▸ .refl _, .inl hnone⟩
    cases better with
    | false => exact hskip fun h => by rw [h.2] at hbetter; cases hbetter
    | true =>
      -- both conditions hold, so the state is kept
      refine (saveBest_leads e' w.solution).mono (fun _ _ h => h) (fun _ _ _ ⟨he, hsaved⟩ => ?_)
        fun _ _ ⟨he, honward, hnone⟩ => ⟨he, honward, .inr hnone⟩
      rw [he]
      exact .saved ⟨hlimit, hbetter⟩ hsaved
  · rename_i hlimit
    exact hskip fun h => hlimit h.1

/-! ## A pass -/

section

omit [Scalar α] [Model M V α] [Strategy S M V α] in
/-- An operation on the strategy leaves the rest of the engine as it is. -/
theorem leads_onStrategy {β : Type} {x : Act S M α β} {F : Engine S M V α → Prop}
    {P : S → Solution M α → Prop} {Q : β → S → Solution M α → Prop} {E : S → Solution M α → Prop}
    (hF : ∀ e strategy, F e → F { e with strategy }) (hx : Leads P x Q E) :
    Leads (fun e s => F e ∧ P e.strategy s) (onStrategy x : Act (Engine S M V α) M α β)
      (fun b e s => F e ∧ Q b e.strategy s) (fun e s => F e ∧ E e.strategy s) :=
  leads_within fun e _ h => (hx.mono (fun _ _ h => h) (fun _ t _ h' => ⟨hF e t h.1, h'⟩)
    fun t _ h' => ⟨hF e t h.1, h'⟩).at h.2

omit [Model M V α] [Strategy S M V α]

variable {β : Type} {P : Engine S M V α → Solution M α → Prop}
  {Q : β → Engine S M V α → Solution M α → Prop} {E : Engine S M V α → Solution M α → Prop}

omit [Scalar α] in
/-- Telling the hooks changes neither the engine nor the solution. -/
theorem leads_tellHooks_bind {notice : String → Notice α} {f : Unit → Act (Engine S M V α) M α β}
    (hf : ∀ u, Leads P (f u) Q E) : Leads P (tellHooks notice >>= f) Q E :=
  Leads.bind (Q := fun _ => P) (fun _ hs => hs) hf

omit [Scalar α] in
/-- Telling the extensions changes neither the engine nor the solution. -/
theorem leads_tellExtensions_bind {notice : String → Notice α}
    {f : Unit → Act (Engine S M V α) M α β} (hf : ∀ u, Leads P (f u) Q E) :
    Leads P (tellExtensions notice >>= f) Q E :=
  Leads.bind (Q := fun _ => P) (fun _ hs => hs) hf

end

/-- What comes of a proposal: it is committed, which counts as an iteration, and an applied one is
an opportunity to keep the state. -/
inductive Committed (p : Proposal V α) (time : α) (e : Engine S M V α) (s : Solution M α) :
    Engine S M V α → Solution M α → Prop
  | applied {delta : α} {model : M} {e' : Engine S M V α} {s' : Solution M α}
    (hrun : p.commit s.model = .ok (.applied delta) model)
    (hsave : SaveStep e (Solution.update { s with model } time) e' s') : Committed p time e s e' s'
  | rejected {delta : α} {model : M} (hrun : p.commit s.model = .ok (.rejected delta) model) :
    Committed p time e s e (Solution.update { s with model } time)

/-- A proposal cannot be committed, or the state that it leaves cannot be saved. -/
def Breaks (p : Proposal V α) (time : α) (e : Engine S M V α) (s : Solution M α) : Prop :=
  (∀ c m, p.commit s.model ≠ .ok c m) ∨
    ∃ delta m, p.commit s.model = .ok (.applied delta) m ∧
      e.Unsavable (Solution.update { s with model := m } time)

theorem commit_leads (p : Proposal V α) (time : α) (e : Engine S M V α) (s : Solution M α) :
    Leads (At e s) (commit p time : Act (Engine S M V α) M α Unit)
      (fun _ => Committed p time e s)
      (fun e' s' => e' = e ∧ s.Onward s' ∧ Breaks p time e s) := by
  unfold commit
  refine leads_solution_bind_any fun _ => ?_
  dsimp only
  refine Leads.bind (Q := fun c e' s' => e' = e ∧ ∃ m, p.commit s.model = .ok c m ∧
    s' = { s with model := m }) (leads_onWorld fun e' => ?_) fun c => ?_
  · refine Attempt.ensures_focus fun w ⟨he, hs⟩ => ?_
    subst hs
    refine Attempt.ensures_of (fun _ c m hm hrun => ⟨he, m, hm ▸ hrun, rfl⟩) fun _ _ _ hm hrun => ?_
    refine ⟨he, .refl w.solution, .inl fun c m hok => ?_⟩
    cases hrun.symm.trans (hm ▸ hok)
  refine Leads.bind (Q := fun _ e' s' => e' = e ∧ ∃ m, p.commit s.model = .ok c m ∧
    s' = Solution.update { s with model := m } time) ?_ fun _ => ?_
  · rintro ⟨e', w⟩ ⟨he, m, hrun, hs⟩
    refine ⟨he, m, hrun, ?_⟩
    show w.solution.update time = _
    rw [hs]
  cases c with
  | applied delta =>
    refine leads_report_bind fun _ => leads_solution_bind_any fun now => ?_
    refine leads_tellHooks_bind fun _ => leads_tellExtensions_bind fun _ => ?_
    refine leads_of_at fun e' s' ⟨he, m, hrun, hs⟩ => ?_
    subst he hs
    -- only an applied proposal is an opportunity to keep the state
    refine (saveIfBetter_leads e' _).mono (fun _ _ h => h) (fun _ _ _ hsave => ?_)
      fun _ _ ⟨he, honward, hunsavable⟩ => ?_
    · exact .applied hrun hsave
    · exact ⟨he, ⟨honward.1, Nat.le_of_succ_le honward.2⟩, .inr ⟨delta, m, hrun, hunsavable⟩⟩
  | rejected delta =>
    refine leads_report fun e' s' ⟨he, m, hrun, hs⟩ => ?_
    rw [he, hs]
    exact .rejected hrun

/-- What comes of a pass after the selection has left the solution `s`. -/
inductive Passed (Ψ : M → Proposal V α → Prop) (time : α) (e : Engine S M V α) (s : Solution M α) :
    Engine S M V α → Solution M α → Prop
  | idle : Passed Ψ time e s e (s.update time)
  | committed {p : Proposal V α} {e' : Engine S M V α} {s' : Solution M α} (hp : Ψ s.model p)
    (h : Committed p time e s e' s') : Passed Ψ time e s e' s'

variable {P Q E : Engine S M V α → Solution M α → Prop} {Ψ : M → Proposal V α → Prop}

/-- The engine once a proposal was shown to its guards. -/
def heard (e : Engine S M V α) (iteration : Nat) (p : Proposal V α) : Engine S M V α :=
  { e with observers := e.observers.heard iteration p }

/-- What a selection leaves once its proposal was shown to the guards. -/
def shown (t : Engine S M V α × World M α) (p : Proposal V α) : Engine S M V α × World M α :=
  (t.1.heard t.2.solution.iteration p,
    t.2.tell (t.1.observers.questions t.2.solution.iteration p))

section

variable {t : Engine S M V α × World M α} {p : Proposal V α} {e : Engine S M V α} {w : World M α}

omit [Scalar α] [Model M V α]

/-- The guards answer whether a proposal of the strategy is selected. -/
theorem select_of_some (h : onStrategy Strategy.select (e, w) = .ok (some p) t) :
    select (e, w) = match t.1.observers.answer t.2.solution.iteration p with
      | .ok kept => .ok (if kept then some p else none) (shown t p)
      | .error fault => .error (.fault fault) (shown t p) := by
  have hget : (get : Act (Engine S M V α) M α _) t = .ok t t := rfl
  unfold select
  rw [Attempt.bind_of_ok h]
  dsimp only
  rw [Attempt.bind_of_ok hget, Observers.ask_eq]
  cases t.1.observers.answer t.2.solution.iteration p <;> rfl

theorem select_of_kept (h : onStrategy Strategy.select (e, w) = .ok (some p) t)
    (hkept : t.1.observers.answer t.2.solution.iteration p = .ok true) :
    select (e, w) = .ok (some p) (shown t p) := by
  rw [select_of_some h, hkept]
  rfl

theorem select_of_veto (h : onStrategy Strategy.select (e, w) = .ok (some p) t)
    (hveto : t.1.observers.answer t.2.solution.iteration p = .ok false) :
    select (e, w) = .ok none (shown t p) := by
  rw [select_of_some h, hveto]
  rfl

theorem select_of_break {fault : Fault} (h : onStrategy Strategy.select (e, w) = .ok (some p) t)
    (hbreak : t.1.observers.answer t.2.solution.iteration p = .error fault) :
    select (e, w) = .error (.fault fault) (shown t p) := by
  rw [select_of_some h, hbreak]

theorem select_of_none (h : onStrategy Strategy.select (e, w) = .ok none t) :
    (select : Act (Engine S M V α) M α (Option (Proposal V α))) (e, w) = .ok none t :=
  Attempt.bind_of_ok h

theorem select_of_error {failure : Failure}
    (h : (onStrategy Strategy.select : Act (Engine S M V α) M α (Option (Proposal V α))) (e, w) =
      .error failure t) :
    (select : Act (Engine S M V α) M α (Option (Proposal V α))) (e, w) = .error failure t :=
  Attempt.bind_of_error h

/-- A selection ends as that of the strategy does, unless there is a proposal and a guard refuses it
or breaks off. -/
theorem ensures_select {P E : Engine S M V α × World M α → Prop}
    {R Q : Option (Proposal V α) → Engine S M V α × World M α → Prop}
    (hS : Attempt.Ensures P
      (onStrategy Strategy.select : Act (Engine S M V α) M α (Option (Proposal V α))) R E)
    (hnone : ∀ t, R none t → Q none t)
    (hanswered : ∀ t p kept, R (some p) t →
      t.1.observers.answer t.2.solution.iteration p = .ok kept →
        Q (if kept then some p else none) (shown t p))
    (hbreaks : ∀ t p fault, R (some p) t →
      t.1.observers.answer t.2.solution.iteration p = .error fault → E (shown t p)) :
    Attempt.Ensures P (select : Act (Engine S M V α) M α (Option (Proposal V α))) Q E := by
  rintro ⟨e, w⟩ hP
  cases hrun : (onStrategy Strategy.select : Act (Engine S M V α) M α (Option (Proposal V α)))
    (e, w) with
  | error failure t =>
    rw [select_of_error hrun]
    exact hS.of_error hP hrun
  | ok p? t =>
    have hR := hS.of_ok hP hrun
    cases p? with
    | none =>
      rw [select_of_none hrun]
      exact hnone t hR
    | some p =>
      rw [select_of_some hrun]
      cases hanswer : t.1.observers.answer t.2.solution.iteration p with
      | ok kept => exact hanswered t p kept hR hanswer
      | error fault => exact hbreaks t p fault hR hanswer

end

/-- Showing a proposal to the guards keeps `Q`, and leaves `E` if one of them breaks off. -/
structure Hears (Ψ : M → Proposal V α → Prop) (Q E : Engine S M V α → Solution M α → Prop) :
    Prop where
  kept {e : Engine S M V α} {s : Solution M α} {p : Proposal V α} : Q e s → Ψ s.model p →
    Q (e.heard s.iteration p) s
  failed {e : Engine S M V α} {s : Solution M α} {p : Proposal V α} {fault : Fault} : Q e s →
    Ψ s.model p → e.observers.answer s.iteration p = .error fault → E (e.heard s.iteration p) s

omit [Scalar α] [Model M V α] [Strategy S M V α] in
/-- What says nothing about the observers is kept. -/
theorem hears_of (hQ : ∀ e observers s, Q e s → Q { e with observers } s)
    (hE : ∀ e s, Q e s → E e s) : Hears Ψ Q E where
  kept h _ := hQ _ _ _ h
  failed h _ _ := hE _ _ (hQ _ _ _ h)

omit [Scalar α] [Model M V α] in
/-- The guards see a selection, and change nothing but themselves. -/
theorem select_leads
    (hS : Leads P (onStrategy Strategy.select : Act (Engine S M V α) M α (Option (Proposal V α)))
      (fun p? e s => Q e s ∧ ∀ p, p? = some p → Ψ s.model p) E)
    (hguards : Hears Ψ Q E) :
    Leads P (select : Act (Engine S M V α) M α (Option (Proposal V α)))
      (fun p? e s => Q e s ∧ ∀ p, p? = some p → Ψ s.model p) E := by
  refine ensures_select hS (fun _ h => h) (fun t p kept ⟨hQ, hp⟩ _ => ?_)
    fun t p fault ⟨hQ, hp⟩ hanswer => hguards.failed hQ (hp p rfl) hanswer
  -- a vetoed proposal is no proposal any more
  refine ⟨hguards.kept hQ (hp p rfl), fun p' hp' => ?_⟩
  split at hp'
  · cases hp'
    exact hp p rfl
  · cases hp'

/-- A pass is a selection and what comes of it. It fails as the selection does, because a guard
breaks off, or because the proposal breaks. -/
theorem pass_leads (time : α)
    (hS : Leads P (onStrategy Strategy.select : Act (Engine S M V α) M α (Option (Proposal V α)))
      (fun p? e s => Q e s ∧ ∀ p, p? = some p → Ψ s.model p) E)
    (hguards : Hears Ψ Q E)
    (hE : ∀ e s p s', Q e s → Ψ s.model p → s.Onward s' → Breaks p time e s → E e s') :
    Leads P (pass time : Act (Engine S M V α) M α Unit)
      (fun _ e' s' => ∃ e s, Q e s ∧ Passed Ψ time e s e' s') E := by
  unfold pass
  refine (select_leads hS hguards).bind fun p? => ?_
  cases p? with
  | none =>
    refine leads_solution_bind_any fun s => leads_report_bind fun _ => ?_
    rintro ⟨e, w⟩ ⟨hQ, -⟩
    exact ⟨e, w.solution, hQ, .idle⟩
  | some p =>
    refine leads_of_at fun e s ⟨hQ, hp⟩ => ?_
    refine (commit_leads p time e s).mono (fun _ _ h => h)
      (fun _ _ _ h => ⟨e, s, hQ, .committed (hp p rfl) h⟩) fun e' s' ⟨he, honward, hbreaks⟩ => ?_
    rw [he]
    exact hE e s p s' hQ (hp p rfl) honward hbreaks

/-- A turn that does not end the search is a pass. -/
theorem turn_leads (stop : Bool) (time : α)
    (hS : Leads P (onStrategy Strategy.select : Act (Engine S M V α) M α (Option (Proposal V α)))
      (fun p? e s => Q e s ∧ ∀ p, p? = some p → Ψ s.model p) E)
    (hguards : Hears Ψ Q E)
    (hE : ∀ e s p s', Q e s → Ψ s.model p → s.Onward s' → Breaks p time e s → E e s') :
    Leads P (turn stop time : Act (Engine S M V α) M α (Option Ending))
      (fun ending? e' s' => match ending? with
        | some _ => P e' s'
        | none => ∃ e s, Q e s ∧ Passed Ψ time e s e' s') E := by
  unfold turn
  split
  · exact leads_pure fun _ _ h => h
  · refine leads_get_bind fun e w h => ?_
    dsimp only
    split
    · exact leads_pure fun _ _ ⟨he, hs⟩ => by rw [he, hs]; exact h
    · exact ((pass_leads time hS hguards hE).at h).bind fun _ => leads_pure fun _ _ h => h

/-! ## The opening -/

omit [Scalar α] [Model M V α] [Strategy S M V α] in
/-- Preparing the extensions changes nothing but what they were told. -/
theorem fixes_initExtensions {β : Type} {part : Extensions × World M α → β}
    (h : ∀ t name, part (t.1, t.2.tell [.extensionInit name]) = part t) :
    Attempt.Fixes part (Extensions.init : Act Extensions M α Unit) := by
  have htell (name : String) : Attempt.Fixes part
      (modify fun s => (s.1, s.2.tell [.extensionInit name]) : Act Extensions M α PUnit) :=
    Attempt.fixes_modify fun t => h t name
  unfold Extensions.init
  refine Attempt.fixes_bind (Attempt.fixes_map Attempt.fixes_get) fun e => ?_
  refine Attempt.fixes_bind (Attempt.fixes_forIn _ fun x => ?_) fun _ => by simp
  -- whether or not an extension listens, what is left to do is to look at its refusal
  cases x.refusal with
  | none => exact Attempt.fixes_when (htell x.name) fun _ => by simp
  | some error => exact Attempt.fixes_when (htell x.name) fun _ => by simp

omit [Scalar α] [Model M V α] [Strategy S M V α] in
theorem quiet_initExtensions : Quiet (Extensions.init : Act Extensions M α Unit) :=
  fixes_initExtensions fun _ _ => rfl

/-- What is left of the opening when the strategy and the extensions are prepared: the search is
announced, and there is an opportunity to keep its first state. -/
def announce (iteration : Nat) : Act (Engine S M V α) M α Bool := do
  tellHooks (.started · iteration)
  saveIfBetter
  if Model.variableCount (← Act.solution).model = 0 then
    Act.report .warn "nothing_to_solve" fun _ => []
    return true
  return false

/-- Whether or not the start of the search is reported, it is announced. -/
theorem opening_eq : (opening : Act (Engine S M V α) M α Bool) = (do
    onStrategy Strategy.init
    onExtensions Extensions.init
    let (e, w) ← get
    if w.journal.keeps .info then
      let total ← Model.totalValue w.solution.model
      Act.report .info "solve_start" fun _ => [
        ("strategy", .text (Strategy.name M e.strategy)),
        ("variables", .count (Model.variableCount w.solution.model)),
        ("unassigned", .count (Model.unassignedCount w.solution.model)),
        ("total_value", .number total)]
      announce w.solution.iteration
    else announce w.solution.iteration) := rfl

theorem announce_leads (e : Engine S M V α) (s : Solution M α)
    (iteration : Nat) :
    Leads (At e s) (announce iteration : Act (Engine S M V α) M α Bool)
      (fun nothing e' s' => SaveStep e s e' s' ∧
        (nothing = true ↔ Model.variableCount s'.model = 0))
      (fun e' s' => e' = e ∧ s.Onward s' ∧ e.Unsavable s) := by
  unfold announce
  refine leads_tellHooks_bind fun _ => (saveIfBetter_leads e s).bind fun _ => ?_
  refine leads_solution_bind fun e' s' hsave => ?_
  split
  · rename_i hzero
    refine leads_report_bind fun _ => leads_pure ?_
    rintro _ _ ⟨rfl, rfl⟩
    exact ⟨hsave, fun _ => hzero, fun _ => rfl⟩
  · rename_i hcount
    refine leads_pure ?_
    rintro _ _ ⟨rfl, rfl⟩
    exact ⟨hsave, nofun, fun hzero => (hcount hzero).elim⟩

/-- The opening prepares the strategy and the extensions, and is an opportunity to keep the first
state. -/
theorem opening_leads
    (hinit : Leads P (onStrategy Strategy.init : Act (Engine S M V α) M α Unit) (fun _ => Q) E)
    (hextensions : Leads Q (onExtensions Extensions.init : Act (Engine S M V α) M α Unit)
      (fun _ => Q) E)
    (htotal : ∀ e s, Q e s → (∀ total, Model.totalValue s.model ≠ .ok total) → E e s)
    (hE : ∀ e s s', Q e s → s.Onward s' → e.Unsavable s → E e s') :
    Leads P (opening : Act (Engine S M V α) M α Bool)
      (fun nothing e' s' => (∃ e s, Q e s ∧ SaveStep e s e' s') ∧
        (nothing = true ↔ Model.variableCount s'.model = 0)) E := by
  rw [opening_eq]
  refine hinit.bind fun _ => hextensions.bind fun _ => ?_
  refine leads_get_bind fun e w h => ?_
  dsimp only
  have htail : Leads (At e w.solution)
      (announce w.solution.iteration : Act (Engine S M V α) M α Bool)
      (fun nothing e' s' => (∃ e s, Q e s ∧ SaveStep e s e' s') ∧
        (nothing = true ↔ Model.variableCount s'.model = 0)) E := by
    refine (announce_leads e w.solution w.solution.iteration).mono (fun _ _ h => h)
      (fun _ _ _ ⟨hsave, hnothing⟩ => ⟨⟨e, w.solution, h, hsave⟩, hnothing⟩) ?_
    intro e' s' ⟨he, honward, hunsavable⟩
    rw [he]
    exact hE e w.solution s' h honward hunsavable
  split
  · refine leads_lift_bind_or (fun _ _ hnone ht => ?_) fun total _ => leads_report_bind fun _ => htail
    rw [ht.1, ht.2]
    exact htotal e w.solution h hnone
  · exact htail

omit [Scalar α] [Model M V α] [Strategy S M V α] in
/-- Preparing the extensions changes nothing but the extensions. -/
theorem initExtensions_leads {F : Engine S M V α → Prop} {I : Solution M α → Prop}
    (hF : ∀ e extensions, F e → F { e with extensions }) :
    Leads (fun e s => F e ∧ I s) (onExtensions Extensions.init : Act (Engine S M V α) M α Unit)
      (fun _ e s => F e ∧ I s) (fun _ => I) :=
  leads_within fun e _ h => ((ensures_quiet (P := I) (quiet_initExtensions (M := M) (α := α))
    fun _ h => h).leads.mono (fun _ _ h => h) (fun _ t _ hs => ⟨hF e t h.1, hs⟩)
      fun _ _ hs => hs).at h.2

end Engine

end LocalSearch
