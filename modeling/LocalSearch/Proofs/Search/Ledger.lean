import LocalSearch.Proofs.Model.Commit
import LocalSearch.Proofs.Search.Configured
import LocalSearch.Proofs.Selection.Kinds
/-!
# The best state of a search

When a search replaces its best state, and by what. Strategies go back to the best state and
unassign variables, and iterations may fail; none of this touches the snapshot.

* `Model.CountsBest`: what a model has to get right about the assignment that it keeps.
* `Solution.SameBest`, `Solution.Improves`: the best state stays, or a better one takes its place.
* `Solver.Saves`: a step of a search that replaces the best state.
* `Solver.step_sameBest_or_saves`: every step does one or the other.
* `Solver.iteration_lt_of_saves`: the iterations of the best states of a search increase.
-/

namespace LocalSearch

open Act

/-- A model that keeps its best assignment apart from the current one and counts the unassigned
variables of both in the same way. -/
class Model.CountsBest (M : Type) {V α : outParam Type} [Model M V α] : Prop where
  unassignedCount_saveBest (m : M) :
    Model.unassignedCount (Model.saveBest m) = Model.unassignedCount m
  totalValue_saveBest (m : M) : Model.totalValue (Model.saveBest m) = Model.totalValue m
  bestUnassignedCount_saveBest (m : M) :
    Model.bestUnassignedCount (Model.saveBest m) = Model.unassignedCount m
  bestUnassignedCount_restoreBest (m : M) :
    Model.bestUnassignedCount (Model.restoreBest m) = Model.bestUnassignedCount m
  bestUnassignedCount_assign {m m' : M} {v : Nat} {x : V} : Model.assign m v x = .ok m' →
    Model.bestUnassignedCount m' = Model.bestUnassignedCount m
  bestUnassignedCount_unassign {m m' : M} {v : Nat} : Model.unassign m v = .ok m' →
    Model.bestUnassignedCount m' = Model.bestUnassignedCount m
  bestUnassignedCount_spoiled (m : M) :
    Model.bestUnassignedCount (Model.spoiled m) = Model.bestUnassignedCount m

/-- Without a best assignment as many variables count as unassigned as there are. -/
theorem Penalty.bestUnassignedCount_set {α : Type} [Scalar α] {p : Penalty α} {v : Nat}
    {option : Option Nat} {assigned : List (Option Nat)} (assignments : Nat)
    (h : store p.assigned v option = .ok assigned) :
    Model.bestUnassignedCount { p with assigned, assignments } = Model.bestUnassignedCount p := by
  obtain ⟨-, rfl⟩ := store_eq_ok_iff.1 h
  show (p.best.map openCount).getD (p.assigned.set v option).length = _
  rw [List.length_set]
  rfl

instance {α : Type} [Scalar α] : Model.CountsBest (Penalty α) where
  unassignedCount_saveBest _ := rfl
  totalValue_saveBest _ := rfl
  bestUnassignedCount_saveBest _ := rfl
  bestUnassignedCount_restoreBest p := by
    show (p.best.map Penalty.openCount).getD (p.best.getD (p.assigned.map fun _ => none)).length = _
    cases hbest : p.best with
    | none => simp [Model.bestUnassignedCount, hbest]
    | some k => simp [Model.bestUnassignedCount, hbest]
  bestUnassignedCount_assign {p p' v x} h := by
    obtain ⟨a, ha, hp⟩ := bind_eq_ok_iff.1 h
    cases hp
    exact Penalty.bestUnassignedCount_set _ ha
  bestUnassignedCount_unassign {p p' v} h := by
    obtain ⟨a, ha, hp⟩ := bind_eq_ok_iff.1 h
    cases hp
    exact Penalty.bestUnassignedCount_set _ ha
  bestUnassignedCount_spoiled _ := rfl

instance {α : Type} [Scalar α] : Model.CountsBest (Timetable α) where
  unassignedCount_saveBest _ := rfl
  totalValue_saveBest _ := rfl
  bestUnassignedCount_saveBest _ := rfl
  bestUnassignedCount_restoreBest _ := rfl
  bestUnassignedCount_assign {p p' v x} h := by
    obtain ⟨a, -, hp⟩ := bind_eq_ok_iff.1 h
    cases hp
    rfl
  bestUnassignedCount_unassign {p p' v} h := by
    obtain ⟨a, -, hp⟩ := bind_eq_ok_iff.1 h
    cases hp
    rfl
  bestUnassignedCount_spoiled _ := rfl

variable {G M V α : Type} [Model M V α]

/-! ## What may become of the best state -/

namespace Solution

/-- The snapshot is the same, and so is the number of unassigned variables it is compared by. -/
structure SameBest (s s' : Solution M α) : Prop where
  best : s'.best = s.best
  count : Model.bestUnassignedCount s'.model = Model.bestUnassignedCount s.model

/-- The second solution is recorded as the best state with the snapshot `b`, within a limit on
unassigned variables, and it is better than the best state of the first. -/
structure Improves [Scalar α] (limit : Int) (s : Solution M α) (b : Snapshot α)
    (s' : Solution M α) : Prop where
  best : s'.best = some b
  iteration : b.iteration = s'.iteration
  value : Model.totalValue s'.model = .ok b.value
  count : Model.bestUnassignedCount s'.model = Model.unassignedCount s'.model
  within : 0 ≤ limit → (Model.unassignedCount s'.model : Int) ≤ limit
  better : ∀ b₀, s.best = some b₀ →
    Model.bestUnassignedCount s'.model < Model.bestUnassignedCount s.model ∨
      Model.bestUnassignedCount s'.model = Model.bestUnassignedCount s.model ∧ b.value < b₀.value

variable {s t s' : Solution M α}

theorem SameBest.refl (s : Solution M α) : s.SameBest s :=
  ⟨rfl, rfl⟩

theorem SameBest.trans (h : s.SameBest t) (h' : t.SameBest s') : s.SameBest s' :=
  ⟨h'.best.trans h.best, h'.count.trans h.count⟩

theorem SameBest.update (h : s.SameBest t) (time : α) : s.SameBest (t.update time) :=
  h.trans ⟨rfl, rfl⟩

variable [Model.CountsBest M]

/-- Going back to the best state does not change it. -/
theorem keptByRestore_sameBest (s : Solution M α) : KeptByRestore s.SameBest := by
  intro t ht
  refine ht.trans ?_
  unfold restoreBest
  cases hbest : t.best with
  | none => exact .refl t
  | some b => exact ⟨hbest.symm, Model.CountsBest.bestUnassignedCount_restoreBest _⟩

theorem keptByUnassign_sameBest (s : Solution M α) : KeptByUnassign s.SameBest :=
  fun _ _ _ ht h => ht.trans ⟨rfl, Model.CountsBest.bestUnassignedCount_unassign h⟩

/-- A commit changes the assignment, but not the one that the model keeps. -/
theorem SameBest.commit [Scalar α] (h : s.SameBest t) {p : Proposal V α} {c : Commit α} {m : M}
    (hrun : p.commit t.model = .ok c m) : s.SameBest { t with model := m } := by
  have hcount : Model.Invariant fun m : M =>
      Model.bestUnassignedCount m = Model.bestUnassignedCount t.model :=
    ⟨fun hm h => (Model.CountsBest.bestUnassignedCount_assign h).trans hm,
      fun hm h => (Model.CountsBest.bestUnassignedCount_unassign h).trans hm, id,
      fun hm => (Model.CountsBest.bestUnassignedCount_spoiled _).trans hm⟩
  exact h.trans ⟨rfl, (Proposal.commit_ensures hcount p).of_ok rfl hrun⟩

/-- The best state is at most `n` unassigned variables away from a complete one, and neither it nor
the state itself is from before iteration `low`. -/
structure Since (low n : Nat) (s : Solution M α) : Prop where
  iteration : low ≤ s.iteration
  best : ∃ b, s.best = some b ∧ low ≤ b.iteration
  count : Model.bestUnassignedCount s.model ≤ n

theorem keptByRestore_since (low n : Nat) : KeptByRestore (M := M) (α := α) (Since low n) := by
  intro s hs
  obtain ⟨b, hb, hlow⟩ := hs.best
  have hcount := Model.CountsBest.bestUnassignedCount_restoreBest s.model
  unfold restoreBest
  simp only [hb]
  exact ⟨hlow, ⟨b, rfl, hlow⟩, hcount ▸ hs.count⟩

theorem keptByUnassign_since (low n : Nat) : KeptByUnassign (M := M) (α := α) (Since low n) :=
  fun _ _ _ hs h => ⟨hs.iteration, hs.best,
    (Model.CountsBest.bestUnassignedCount_unassign h).symm ▸ hs.count⟩

/-- A state that is kept because the general comparator prefers it is better than the best one. -/
theorem Saved.improves [Scalar α] {S : Type} {e : Engine S M V α} (h : t.Saved s')
    (hgeneral : e.comparator = .general) (hdue : e.Due t) (hsame : s.SameBest t) :
    ∃ b, Improves e.saveBestUnassigned s b s' := by
  obtain ⟨b, hb, rfl⟩ := h
  obtain ⟨hiteration, hvalue, -⟩ := of_snapshot_eq_ok hb
  have hunassigned : Model.unassignedCount (Model.saveBest t.model) = Model.unassignedCount t.model :=
    Model.CountsBest.unassignedCount_saveBest _
  have hcount : Model.bestUnassignedCount (Model.saveBest t.model) = Model.unassignedCount t.model :=
    Model.CountsBest.bestUnassignedCount_saveBest _
  refine ⟨b, rfl, hiteration, hvalue, hcount.trans hunassigned.symm, fun hlimit => ?_,
    fun b₀ hb₀ => ?_⟩
  -- a negative limit allows any number, which is why the bound is claimed for the others only
  · have hwithin := hdue.1
    simp only [GeneralConfig.withinLimit, Bool.or_eq_true, decide_eq_true_eq] at hwithin
    show (Model.unassignedCount (Model.saveBest t.model) : Int) ≤ _
    rw [hunassigned]
    omega
  · show Model.bestUnassignedCount (Model.saveBest t.model) < _ ∨
      Model.bestUnassignedCount (Model.saveBest t.model) = _ ∧ _
    -- the model has counted its best assignment by the same measure, as nothing changed it since
    rw [hcount, ← hsame.count]
    have hbetter := hdue.2
    rw [hgeneral] at hbetter
    refine (Comparator.general_isBetter (hsame.best.trans hb₀) hbetter).imp_right ?_
    rintro ⟨hequal, value, htotal, hlt⟩
    have hvalue : Model.totalValue (Model.saveBest t.model) = .ok b.value := hvalue
    rw [Model.CountsBest.totalValue_saveBest, htotal] at hvalue
    cases hvalue
    exact ⟨hequal, hlt⟩

/-- The state that an applied commit left was kept as the best one. -/
def SavedAfterCommit [Scalar α] (s s' : Solution M α) : Prop :=
  ∃ (t : Solution M α) (p : Proposal V α) (delta : α) (m : M) (time : α), s.SameBest t ∧
    p.commit t.model = .ok (.applied delta) m ∧
      (Solution.update { t with model := m } time).Saved s'

end Solution

/-! ## A turn -/

variable {S : Type} [Scalar α] [Strategy S M V α]

variable (S) in
/-- A strategy that changes the solution only by going back to the best state and by unassigning
variables, and not at all while it prepares for a search. -/
structure Strategy.Restrained : Prop where
  init : Quiet (Strategy.init : Act S M α Unit)
  select (I : Solution M α → Prop) : KeptByRestore I → KeptByUnassign I →
    Strategy.Selects S I fun _ _ => True

theorem AnyStrategy.restrained [MoveGenerator G M V α] :
    Strategy.Restrained (M := M) (AnyStrategy G α) where
  init := AnyStrategy.quiet_init
  select _ hrestore hunassign :=
    (AnyStrategy.selects MoveGenerator.proposes_any hrestore hunassign).mono_post fun _ _ h =>
      ⟨h.1, fun _ _ => trivial⟩

namespace Engine

/-- An engine that compares by unassigned variables first and keeps to a limit on them. -/
def Follows (limit : Int) (e : Engine S M V α) : Prop :=
  e.comparator = .general ∧ e.saveBestUnassigned = limit

omit [Scalar α] in
theorem leads_select (hS : Strategy.Restrained (M := M) S) {K : Engine S M V α → Prop}
    (hK : ∀ e strategy, K e → K { e with strategy }) {I : Solution M α → Prop}
    (hrestore : KeptByRestore I) (hunassign : KeptByUnassign I) :
    Leads (fun e s => K e ∧ I s)
      (onStrategy Strategy.select : Act (Engine S M V α) M α (Option (Proposal V α)))
      (fun p? e s => (K e ∧ I s) ∧ ∀ p, p? = some p → True) (fun _ => I) :=
  leads_within fun e _ h => ((hS.select I hrestore hunassign).leads.mono_post
    fun _ _ _ h' => ⟨⟨hK e _ h.1, h'.1⟩, h'.2⟩).at h.2

variable [Model.CountsBest M] {limit : Int} {e e' : Engine S M V α} {s t s' : Solution M α}
  {time : α}

/-- An opportunity to keep the state leaves the best state alone or puts a better one in
its place. -/
theorem SaveStep.sameBest_or_improves (h : SaveStep e t e' s') (he : e.Follows limit)
    (hsame : s.SameBest t) :
    e'.Follows limit ∧ (s.SameBest s' ∨ t.Saved s' ∧ ∃ b, s.Improves limit b s') := by
  cases h with
  | skipped hdue => exact ⟨he, .inl hsame⟩
  | saved hdue hsaved =>
    exact ⟨he, .inr ⟨hsaved, he.2 ▸ hsaved.improves he.1 hdue hsame⟩⟩

/-- Only an applied commit can lead to another best state. -/
theorem Passed.sameBest_or_improves {Ψ : M → Proposal V α → Prop} (h : Passed Ψ time e t e' s')
    (he : e.Follows limit) (hsame : s.SameBest t) :
    e'.Follows limit ∧
      (s.SameBest s' ∨ s.SavedAfterCommit s' ∧ ∃ b, s.Improves limit b s') := by
  cases h with
  | idle => exact ⟨he, .inl (hsame.update time)⟩
  | committed _ h =>
    cases h with
    | applied hrun hsave =>
      refine (hsave.sameBest_or_improves he ((hsame.commit hrun).update time)).imp_right ?_
      exact Or.imp_right (And.imp_left fun hsaved => ⟨_, _, _, _, _, hsame, hrun, hsaved⟩)
    | rejected hrun => exact ⟨he, .inl ((hsame.commit hrun).update time)⟩

theorem turn_sameBest_or_improves (hS : Strategy.Restrained (M := M) S) (s : Solution M α)
    (stop : Bool) (time : α) :
    Leads (fun e t => e.Follows limit ∧ s.SameBest t)
      (turn stop time : Act (Engine S M V α) M α (Option Ending))
      (fun ending? e' s' => match ending? with
        | some _ => s'.best = s.best
        | none => e'.Follows limit ∧
          (s.SameBest s' ∨ s.SavedAfterCommit s' ∧ ∃ b, s.Improves limit b s'))
      (fun _ s' => s'.best = s.best) := by
  have hselect := leads_select (K := Follows limit) hS (fun _ _ h => h)
    (Solution.keptByRestore_sameBest s) (Solution.keptByUnassign_sameBest s)
  refine (turn_leads stop time (Ψ := fun _ _ => True) (hselect.mono_error fun _ _ h => h.best)
    (hears_of (fun _ _ _ h => h) fun _ _ h => h.2.best)
    fun _ _ _ _ h _ honward _ => honward.1.trans h.2.best).mono_post ?_
  intro ending? e' s' h
  cases ending? with
  | some ending => exact h.2.best
  | none =>
    obtain ⟨e, t, ⟨he, ht⟩, h⟩ := h
    exact h.sameBest_or_improves he ht

omit [Model.CountsBest M] in
theorem SaveStep.iteration (h : SaveStep e t e' s') : s'.iteration = t.iteration := by
  cases h with
  | skipped => rfl
  | saved _ hsaved =>
    obtain ⟨b, -, rfl⟩ := hsaved
    rfl

omit [Model.CountsBest M] in
/-- A pass counts one iteration from where the selection has left the solution. -/
theorem Passed.iteration {Ψ : M → Proposal V α → Prop} (h : Passed Ψ time e t e' s') :
    s'.iteration = t.iteration + 1 := by
  cases h with
  | idle => rfl
  | committed _ h =>
    cases h with
    | applied _ hsave => exact hsave.iteration
    | rejected _ => rfl

theorem Passed.since {Ψ : M → Proposal V α → Prop} {low n : Nat} (h : Passed Ψ time e t e' s')
    (he : e.Follows limit) (ht : t.Since low n) :
    e'.Follows limit ∧ low < s'.iteration ∧ s'.Since low n := by
  -- even if the selection went back to the best state, the pass counts on from there
  have hlow : low < s'.iteration := by
    rw [h.iteration]
    exact Nat.lt_succ_of_le ht.iteration
  obtain ⟨b₀, hb₀, hlow₀⟩ := ht.best
  obtain ⟨he', hsame | ⟨-, b, himproves⟩⟩ := h.sameBest_or_improves he (.refl t)
  · exact ⟨he', hlow, Nat.le_of_lt hlow, ⟨b₀, hsame.best.trans hb₀, hlow₀⟩, hsame.count ▸ ht.count⟩
  · have hcount : Model.bestUnassignedCount s'.model ≤ Model.bestUnassignedCount t.model := by
      rcases himproves.better b₀ hb₀ with hlt | ⟨hequal, -⟩
      · exact Nat.le_of_lt hlt
      · exact Nat.le_of_eq hequal
    exact ⟨he', hlow, Nat.le_of_lt hlow,
      ⟨b, himproves.best, himproves.iteration ▸ Nat.le_of_lt hlow⟩,
      Nat.le_trans hcount ht.count⟩

theorem turn_since (hS : Strategy.Restrained (M := M) S) (limit : Int) (low n : Nat) (stop : Bool)
    (time : α) :
    Leads (fun e t => e.Follows limit ∧ t.Since low n)
      (turn stop time : Act (Engine S M V α) M α (Option Ending))
      (fun ending? e' s' => match ending? with
        | some _ => True
        | none => e'.Follows limit ∧ low < s'.iteration ∧ s'.Since low n) (fun _ _ => True) := by
  have hselect := leads_select (K := Follows limit) hS (fun _ _ h => h)
    (Solution.keptByRestore_since low n) (Solution.keptByUnassign_since low n)
  refine (turn_leads stop time (Ψ := fun _ _ => True) (hselect.mono_error fun _ _ _ => trivial)
    (hears_of (fun _ _ _ h => h) fun _ _ _ => trivial) fun _ _ _ _ _ _ _ _ => trivial).mono_post ?_
  intro ending? e' s' h
  cases ending? with
  | some ending => trivial
  | none =>
    obtain ⟨e, t, ⟨he, ht⟩, h⟩ := h
    exact h.since he ht

omit [Scalar α] [Model.CountsBest M] in
theorem leads_init (hS : Strategy.Restrained (M := M) S) {K : Engine S M V α → Prop}
    (hK : ∀ e strategy, K e → K { e with strategy }) (I : Solution M α → Prop) :
    Leads (fun e s => K e ∧ I s) (onStrategy Strategy.init : Act (Engine S M V α) M α Unit)
      (fun _ e s => K e ∧ I s) (fun _ => I) :=
  leads_within fun e _ h => ((ensures_quiet (P := I) hS.init fun _ h => h).leads.mono_post
    fun _ _ _ h' => ⟨hK e _ h.1, h'⟩).at h.2

theorem opening_sameBest_or_improves (hS : Strategy.Restrained (M := M) S) (s : Solution M α) :
    Leads (fun e t => e.Follows limit ∧ t = s) (opening : Act (Engine S M V α) M α Bool)
      (fun _ e' s' => e'.Follows limit ∧ (s.SameBest s' ∨ s.Saved s' ∧ ∃ b, s.Improves limit b s'))
      (fun _ s' => s'.best = s.best) := by
  have hbest {t : Solution M α} (h : t = s) : t.best = s.best := by rw [h]
  have hinit := leads_init (K := Follows limit) hS (fun _ _ h => h) (· = s)
  have hextensions := initExtensions_leads (M := M) (α := α) (F := Follows (S := S) (V := V) limit)
    (I := (· = s)) fun _ _ h => h
  refine (opening_leads (hinit.mono_error fun _ _ h => hbest h)
    (hextensions.mono_error fun _ _ h => hbest h) (fun _ _ h _ => hbest h.2)
    fun _ _ _ h honward _ => honward.1.trans (hbest h.2)).mono_post ?_
  rintro _ e' s' ⟨⟨e, t, ⟨he, rfl⟩, h⟩, -⟩
  exact h.sameBest_or_improves he (.refl t)

end Engine

/-! ## Searches -/

namespace Solver

variable [Model.CountsBest M] {limit : Int} {s s₀ s₁ s₂ s₃ s₄ : Solver S M V α}
  {b b' : Snapshot α}

/-- The best state of a solution is the state before the opening, or one that an applied commit left
in a pass. -/
def Originates (s : Solver S M V α) (t : Solution M α) : Prop :=
  s.BeforeOpening ∧ s.world.solution.Saved t ∨ s.BeforePass ∧ s.world.solution.SavedAfterCommit t

/-- A step of the worker that replaces the best state. -/
structure Saves (limit : Int) (s : Solver S M V α) (b : Snapshot α) (s' : Solver S M V α) :
    Prop where
  step : s' = s.work
  after : s'.BeforePass
  improves : s.world.solution.Improves limit b s'.world.solution
  origin : s.Originates s'.world.solution

/-- Before the opening and before every pass the engine keeps to the limit. -/
def Follows (limit : Int) (s : Solver S M V α) : Prop :=
  s.During (fun e _ => e.Follows limit) (fun e _ => e.Follows limit) fun _ _ => True

theorem Follows.steps (hS : Strategy.Restrained (M := M) S) (h : s.Follows limit)
    (hsteps : Steps s s₁) : s₁.Follows limit := by
  refine During.steps ?_ (fun stop time => ?_) h hsteps
  · refine leads_of_at fun e t he => ?_
    exact (Engine.opening_sameBest_or_improves hS t).mono (fun _ _ h => ⟨h.1 ▸ he, h.2⟩)
      (fun _ _ _ h => h.1) fun _ _ _ => trivial
  · refine leads_of_at fun e t he => ?_
    refine (Engine.turn_sameBest_or_improves hS t stop time).mono
      (fun _ _ h => ⟨h.1 ▸ he, h.2 ▸ .refl _⟩) (fun ending? _ _ h => ?_) fun _ _ _ => trivial
    cases ending? with
    | some ending => trivial
    | none => exact h.1

/-- What a step of the worker leaves of the best state, by the stage that it comes to. -/
theorem during_work_of_follows (hS : Strategy.Restrained (M := M) S) (h : s.Follows limit) :
    s.work.During (fun _ _ => False)
      (fun _ t => s.world.solution.SameBest t ∨
        s.Originates t ∧ ∃ b, s.world.solution.Improves limit b t)
      (fun _ t => t.best = s.world.solution.best) := by
  -- what is known before the step, by the stage of the worker
  have hpre : s.During
      (fun e t => (e.Follows limit ∧ t = s.world.solution) ∧ s.BeforeOpening)
      (fun e t => (e.Follows limit ∧ s.world.solution.SameBest t) ∧ s.BeforePass)
      (fun _ => (· = s.world.solution)) := by
    intro w hw
    have he := h w hw
    obtain ⟨e, stage⟩ := w
    cases stage with
    | opening => exact ⟨⟨he, rfl⟩, e, hw⟩
    | passing pass => exact ⟨⟨he, .refl _⟩, e, pass, hw⟩
    | closed state => rfl
    | ended => rfl
  have hopening : Leads (fun e t => (e.Follows limit ∧ t = s.world.solution) ∧ s.BeforeOpening)
      (Engine.opening : Act (Engine S M V α) M α Bool)
      (fun _ _ t => s.world.solution.SameBest t ∨
        s.Originates t ∧ ∃ b, s.world.solution.Improves limit b t)
      (fun _ t => t.best = s.world.solution.best) := by
    refine leads_of_fact fun hbefore => ?_
    refine (Engine.opening_sameBest_or_improves hS s.world.solution).mono_post fun _ _ _ h => ?_
    exact h.2.imp_right (And.imp_left fun hsaved => .inl ⟨hbefore, hsaved⟩)
  have hturn (stop : Bool) (time : α) :
      Leads (fun e t => (e.Follows limit ∧ s.world.solution.SameBest t) ∧ s.BeforePass)
        (Engine.turn stop time : Act (Engine S M V α) M α (Option Ending))
        (fun ending? _ t => match ending? with
          | some _ => t.best = s.world.solution.best
          | none => s.world.solution.SameBest t ∨
              s.Originates t ∧ ∃ b, s.world.solution.Improves limit b t)
        (fun _ t => t.best = s.world.solution.best) := by
    refine leads_of_fact fun hbefore => ?_
    refine (Engine.turn_sameBest_or_improves hS s.world.solution stop time).mono_post
      fun ending? _ _ h => ?_
    cases ending? with
    | some ending => exact h
    | none => exact h.2.imp_right (And.imp_left fun hsaved => .inr ⟨hbefore, hsaved⟩)
  exact hpre.work hopening hturn fun _ t ht => by rw [ht]

/-- A step of the worker that ends the search leaves the snapshot alone; any other leaves the best
state alone or replaces it by a better one. -/
theorem work_sameBest_or_saves (hS : Strategy.Restrained (M := M) S) (h : s.Follows limit) :
    s.work.world.solution.best = s.world.solution.best ∧
        (s.work.BeforePass → s.world.solution.SameBest s.work.world.solution) ∨
      ∃ b, s.Saves limit b s.work := by
  have hpost := during_work_of_follows hS h
  cases hworker : s.worker with
  | none =>
    rw [work_of_none hworker]
    exact .inl ⟨rfl, fun _ => .refl _⟩
  | some w =>
    obtain ⟨⟨e, stage⟩, hw⟩ := worker_work hworker
    have hstage := hpost _ hw
    -- a search that is over makes no further pass
    have hnot (h : ∀ pass, stage ≠ .passing pass) : ¬ s.work.BeforePass := by
      rintro ⟨e', pass, hw'⟩
      cases hw.symm.trans hw'
      exact h pass rfl
    cases stage with
    | opening => exact hstage.elim
    | closed state => exact .inl ⟨hstage, fun hpass => absurd hpass (hnot nofun)⟩
    | ended => exact .inl ⟨hstage, fun hpass => absurd hpass (hnot nofun)⟩
    | passing pass =>
      rcases hstage with hsame | ⟨horigin, b, himproves⟩
      · exact .inl ⟨hsame.best, fun _ => hsame⟩
      · exact .inr ⟨b, rfl, ⟨e, pass, hw⟩, himproves, horigin⟩

theorem step_sameBest_or_saves (hS : Strategy.Restrained (M := M) S) (h : s.Follows limit)
    (hstep : Step s s₁) :
    s₁.world.solution.best = s.world.solution.best ∧
        (s₁.BeforePass → s.world.solution.SameBest s₁.world.solution) ∨
      ∃ b, s.Saves limit b s₁ := by
  cases hstep with
  | work => exact work_sameBest_or_saves hS h
  | stop => exact .inl ⟨rfl, fun _ => .refl _⟩

/-- A later best state of a search is from a later iteration, and no more variables are unassigned
in it. -/
theorem iteration_lt_of_saves (hS : Strategy.Restrained (M := M) S) (h : s₁.Follows limit)
    (hsave : s₁.Saves limit b s₂) (hsteps : Steps s₂ s₃) (hsave' : s₃.Saves limit b' s₄) :
    b.iteration < b'.iteration ∧ Model.bestUnassignedCount s₄.world.solution.model ≤
      Model.bestUnassignedCount s₂.world.solution.model := by
  -- the first save sets the marks that every later pass keeps up
  have hstart : s₂.During (fun _ _ => False) (fun e t => e.Follows limit ∧
      t.Since b.iteration (Model.bestUnassignedCount s₂.world.solution.model)) fun _ _ => True := by
    obtain ⟨e, pass, hpass⟩ := hsave.after
    have he : e.Follows limit :=
      h.steps hS (.single (hsave.step ▸ .work s₁)) _ hpass
    intro w hw
    cases hpass.symm.trans hw
    exact ⟨he, Nat.le_of_eq hsave.improves.iteration, ⟨b, hsave.improves.best, Nat.le_refl _⟩,
      Nat.le_refl _⟩
  have hturn (stop : Bool) (time : α) := Engine.turn_since hS limit b.iteration
    (Model.bestUnassignedCount s₂.world.solution.model) stop time
  have hlater := hstart.steps (fun _ h => h.elim) (fun stop time => (hturn stop time).mono_post
    fun ending? _ _ h => by
      cases ending? with
      | some ending => trivial
      | none => exact ⟨h.1, h.2.2⟩) hsteps
  -- the pass of the later save starts at or after the mark and counts one more iteration
  have hlast := hlater.work (fun _ h => h.elim) hturn fun _ _ h => h
  obtain ⟨e, pass, hpass⟩ := hsave'.after
  obtain ⟨-, hlt, hsince⟩ := hlast _ (hsave'.step ▸ hpass)
  rw [← hsave'.step] at hlt hsince
  exact ⟨Nat.lt_of_lt_of_eq hlt hsave'.improves.iteration.symm, hsince.count⟩

omit [Strategy S M V α] [Model.CountsBest M] in
theorem follows_of_start {e : Engine S M V α} (hengine : s.engine = some e)
    (hgeneral : e.comparator = .general) (hstart : s.start = .ok s₀) :
    s₀.Follows e.saveBestUnassigned := by
  obtain ⟨_, hengine', hworker, -⟩ := worker_of_start hstart
  cases hengine.symm.trans hengine'
  intro w hw
  cases hworker.symm.trans hw
  exact ⟨hgeneral, rfl⟩

/-- The best states of a search, with any generators and guards, whatever these remember, and however
the search ends:

* a step leaves the snapshot alone, or it ends well and replaces it in the opening or after an
  applied commit by a better one within the limit;
* a later snapshot is from a later iteration, and no more variables are unassigned in it;
* a selection leaves the snapshot alone, whether a guard vetoes it or breaks off, or it fails, and
  so does a commit that is rejected. -/
theorem best_ledger [MoveGenerator G M V α] {s s₀ : Solver (AnyStrategy G α) M V α}
    {e : Engine (AnyStrategy G α) M V α} (hengine : s.engine = some e)
    (hgeneral : e.comparator = .general) (hstart : s.start = .ok s₀) :
    (∀ s₁ s₂, Steps s₀ s₁ → Step s₁ s₂ →
      s₂.world.solution.best = s₁.world.solution.best ∧
          (s₂.BeforePass → s₁.world.solution.SameBest s₂.world.solution) ∨
        ∃ b, s₁.Saves e.saveBestUnassigned b s₂) ∧
    (∀ s₁ s₂ s₃ s₄ b b', Steps s₀ s₁ → s₁.Saves e.saveBestUnassigned b s₂ → Steps s₂ s₃ →
      s₃.Saves e.saveBestUnassigned b' s₄ →
        b.iteration < b'.iteration ∧ Model.bestUnassignedCount s₄.world.solution.model ≤
          Model.bestUnassignedCount s₂.world.solution.model) ∧
    (∀ b?, Ensures (·.best = b?)
      (Engine.select : Act (Engine (AnyStrategy G α) M V α) M α (Option (Proposal V α)))
      (fun _ t => t.best = b?) (·.best = b?)) ∧
    ∀ (b? : Option (Snapshot α)) (p : Proposal V α) (time : α) (m : M),
      (∃ delta m', p.commit m = .ok (.rejected delta) m') →
      Ensures (fun t => t.model = m ∧ t.best = b?)
        (Engine.commit p time : Act (Engine (AnyStrategy G α) M V α) M α Unit)
        (fun _ t => t.best = b?) (·.best = b?) := by
  have hS : Strategy.Restrained (M := M) (AnyStrategy G α) := AnyStrategy.restrained
  have hfollows := follows_of_start hengine hgeneral hstart
  refine ⟨fun s₁ s₂ h₁ hstep => ?_, fun s₁ s₂ s₃ s₄ b b' h₁ hsave h₃ hsave' => ?_, fun b? => ?_,
    fun b? p time m hrejected => ?_⟩
  · exact step_sameBest_or_saves hS (hfollows.steps hS h₁) hstep
  · exact iteration_lt_of_saves hS (hfollows.steps hS h₁) hsave h₃ hsave'
  · have hrestore : KeptByRestore fun t : Solution M α => t.best = b? := fun t ht =>
      (Solution.keptByRestore_sameBest t t (.refl t)).best.trans ht
    have hselect := Engine.leads_select (K := fun _ => True) hS (fun _ _ _ => trivial) hrestore
      fun _ _ _ ht _ => ht
    exact (Engine.select_leads (Ψ := fun _ _ => True) hselect
      (Engine.hears_of (fun _ _ _ h => h) fun _ _ h => h.2)).mono (fun _ _ h => ⟨trivial, h⟩)
      (fun _ _ _ h => h.1.2) fun _ _ h => h
  · show Leads (fun _ t => t.model = m ∧ t.best = b?) (Engine.commit p time)
      (fun _ _ t => t.best = b?) (fun _ t => t.best = b?)
    refine leads_of_at fun e t ⟨hmodel, hbest⟩ => ?_
    refine (Engine.commit_leads p time e t).mono (fun _ _ h => h) (fun _ _ t' h => ?_)
      fun _ _ h => h.2.1.1.trans hbest
    obtain ⟨delta, m', hrun⟩ := hrejected
    cases h with
    | applied happlied =>
      rw [hmodel, hrun] at happlied
      cases happlied
    | rejected => exact hbest

/-- The climber saves its first state and, after a step to a better one, another state. -/
theorem best_ledger_climber :
    climber.start = .ok climbing ∧ ∃ b b', climbing.Saves 0 b climbing.work ∧
      climbing.work.Saves 0 b' climbing.work.work ∧ b.iteration < b'.iteration := by
  obtain ⟨hstep, hlater, -⟩ := best_ledger (show climber.engine = some _ from rfl) rfl
    (show climber.start = .ok climbing from rfl)
  have hnone : climbing.world.solution.best.map Snapshot.value = none := by decide +kernel
  have hfirst : climbing.work.world.solution.best.map Snapshot.value = some 1 := by decide +kernel
  have hsecond : climbing.work.work.world.solution.best.map Snapshot.value = some 0 := by
    decide +kernel
  rcases hstep _ _ .refl (.work climbing) with ⟨hsame, -⟩ | ⟨b, hsave⟩
  · rw [hsame, hnone] at hfirst
    cases hfirst
  rcases hstep _ _ (.single (.work _)) (.work climbing.work) with ⟨hsame, -⟩ | ⟨b', hsave'⟩
  · rw [hsame, hfirst] at hsecond
    exact absurd hsecond (by decide +kernel)
  exact ⟨rfl, b, b', hsave, hsave', (hlater _ _ _ _ b b' .refl hsave .refl hsave').1⟩

end Solver

end LocalSearch
