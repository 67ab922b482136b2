import Mathlib
import LocalSearch.Proofs.Search.Ledger
import LocalSearch.Proofs.Search.Snapshot
import LocalSearch.Proofs.Selection.Effect
import LocalSearch.Proofs.Selection.Fill
import LocalSearch.Proofs.Selection.Restarts
/-!
# Optimal searches on independent penalties

A search that begins with construction gives one variable after the other an option of the least
penalty of its row. The assignment that it is left with is complete and has the optimum, so it is
kept as the best one, and nothing that comes later is better.

* `Solution.Optimal`: the best state is complete and has the optimum. `Engine.Passed.optimal`: no
  pass replaces it.
* `Engine.Building`: what holds before a pass while construction is at work.
  `Engine.exists_turn_constructs`: the pass applies an offer of construction and does not fail.
* `Solver.Building`: the same for a search, `Solver.building_work`: as many passes as there are
  variables, by induction.
-/

namespace LocalSearch

open Act

variable {K : Type} [Field K] [LinearOrder K] [Scalar.Functions K] {table : List (List K)}

/-! ## The optimum is kept -/

/-- Assigning and unassigning neither adds variables nor removes any. -/
theorem Penalty.invariant_length (n : Nat) :
    Model.Invariant fun p : Penalty K => p.assigned.length = n where
  assign h hrun := (Model.length_of_assign hrun).trans h
  unassign h hrun := (Model.length_of_unassign hrun).trans h
  failed h := h
  spoiled h := h

namespace Solution

variable {s s' : Solution (Penalty K) K}

/-- The best state is complete and has the least total value that the table allows. -/
def BestOptimal (table : List (List K)) (s : Solution (Penalty K) K) : Prop :=
  ∃ b, s.best = some b ∧ b.complete = true ∧ b.value = Penalty.optimum table

omit [Scalar.Functions K] in
theorem BestOptimal.of_best_eq (h : s.BestOptimal table) (hbest : s'.best = s.best) :
    s'.BestOptimal table := by
  unfold BestOptimal
  rw [hbest]
  exact h

/-- The best state of the table is optimal, and it is complete as the model keeps it. -/
structure Optimal (table : List (List K)) (s : Solution (Penalty K) K) : Prop where
  table_eq : s.model.table = table
  length_assigned : s.model.assigned.length = table.length
  kept : ∃ k, s.model.best = some k ∧ k.length = table.length ∧ Penalty.openCount k = 0
  best : s.BestOptimal table

theorem keptByRestore_optimal : KeptByRestore (Optimal table) := by
  intro s hs
  obtain ⟨k, hk, hlength, hzero⟩ := hs.kept
  obtain ⟨b, hb, -⟩ := hs.best
  have hback : (Model.restoreBest s.model).assigned = k := by
    show s.model.best.getD (s.model.assigned.map fun _ => none) = k
    rw [hk]
    rfl
  unfold restoreBest
  simp only [hb]
  exact ⟨hs.table_eq, hback ▸ hlength, ⟨k, hk, hlength, hzero⟩, hs.best.of_best_eq hb.symm⟩

/-- A commit changes the assignment, but not the best one. -/
theorem Optimal.commit {p : Proposal Nat K} {c : Commit K} {m : Penalty K} (hs : s.Optimal table)
    (hrun : p.commit s.model = .ok c m) (time : K) :
    Optimal table (Solution.update { s with model := m } time) where
  table_eq := (Proposal.commit_ensures (Penalty.invariant_table table) p).of_ok hs.table_eq hrun
  length_assigned :=
    (Proposal.commit_ensures (Penalty.invariant_length table.length) p).of_ok hs.length_assigned hrun
  kept := by
    have hbecomes := (Proposal.commit_ensures (Model.invariant_becomes s.model) p).of_ok
      ⟨rfl, rfl, rfl⟩ hrun
    obtain ⟨k, hk, h⟩ := hs.kept
    exact ⟨k, hbecomes.kept.trans hk, h⟩
  best := hs.best

end Solution

namespace Engine

variable [IsStrictOrderedRing K] {S : Type} {e e' : Engine S (Penalty K) Nat K}
  {s s' : Solution (Penalty K) K} {time : K}

/-- Nothing is better than the optimum. -/
theorem not_due_of_optimal (hgeneral : e.comparator = .general) (hs : s.Optimal table) :
    ¬ e.Due s := by
  rintro ⟨-, hbetter⟩
  obtain ⟨b, hb, -, hvalue⟩ := hs.best
  obtain ⟨k, hk, -, hzero⟩ := hs.kept
  have hcount : Model.bestUnassignedCount s.model = 0 :=
    (Model.Tabular.bestUnassignedCount_eq hk).trans hzero
  rw [hgeneral] at hbetter
  rcases Comparator.general_isBetter hb hbetter with hlt | ⟨hequal, total, htotal, hlt⟩
  · exact Nat.not_lt_zero _ (hcount ▸ hlt)
  · have hle := Penalty.optimum_le hs.table_eq hs.length_assigned (hequal.trans hcount) htotal
    exact absurd hlt (not_lt_of_ge (hvalue ▸ hle))

variable [Strategy S (Penalty K) Nat K]

/-- No pass replaces an optimal best state. -/
theorem Passed.optimal {Ψ : Penalty K → Proposal Nat K → Prop} (h : Passed Ψ time e s e' s')
    (hgeneral : e.comparator = .general) (hs : s.Optimal table) : e' = e ∧ s'.Optimal table := by
  cases h with
  | idle => exact ⟨rfl, hs.table_eq, hs.length_assigned, hs.kept, hs.best⟩
  | committed _ h =>
    cases h with
    | applied hrun hsave =>
      have hs' := hs.commit hrun time
      cases hsave with
      | skipped => exact ⟨rfl, hs'⟩
      | saved hdue => exact absurd hdue (not_due_of_optimal hgeneral hs')
    | rejected hrun => exact ⟨rfl, hs.commit hrun time⟩

variable {G : Type} [MoveGenerator G (Penalty K) Nat K]

omit [IsStrictOrderedRing K] in
/-- What holds before a pass once the best state is optimal. -/
structure AtOptimum (table : List (List K)) (e : Engine (AnyStrategy G K) (Penalty K) Nat K)
    (s : Solution (Penalty K) K) : Prop where
  ready : e.Ready
  restarts : e.strategy.restarts = 0
  settled : s.Settled
  optimal : s.Optimal table

omit [IsStrictOrderedRing K] in
/-- A complete assignment does not stay so when a variable loses its option. -/
theorem not_keptByUnassign (htable : table ≠ []) (hsettled : s.Settled) (hs : s.Optimal table) :
    ¬ KeptByUnassign fun s : Solution (Penalty K) K => s.Settled ∧ s.Optimal table := by
  intro hkept
  have hlt : 0 < s.model.assigned.length := hs.length_assigned ▸ List.length_pos_iff.2 htable
  have hcomplete := (hkept s 0 _ ⟨hsettled, hs⟩ (Penalty.unassign_eq hlt)).1.complete
  exact Table.openCount_ne_zero (List.getElem?_set_self hlt) hcomplete

/-- Once the best state is optimal, a turn keeps it, and there is no restart. Even if the turn ends
the search, well or not, the best state stays what it is. -/
theorem turn_optimal
    (hG : MoveGenerator.Proposes G (Candidate.Fits (M := Penalty K) (V := Nat) (α := K)))
    (htable : table ≠ []) (stop : Bool) (time : K) :
    Leads (AtOptimum table)
      (turn stop time : Act (Engine (AnyStrategy G K) (Penalty K) Nat K) (Penalty K) K _)
      (fun ending? e s => match ending? with
        | some _ => e.strategy.restarts = 0 ∧ s.BestOptimal table
        | none => AtOptimum table e s)
      (fun e s => e.strategy.restarts = 0 ∧ s.BestOptimal table) := by
  let I (s : Solution (Penalty K) K) : Prop := s.Settled ∧ s.Optimal table
  have hrestore : KeptByRestore I := fun s hs =>
    ⟨Solution.keptByRestore_settled s hs.1, Solution.keptByRestore_optimal s hs.2⟩
  have hselect : Leads (AtOptimum table)
      (onStrategy Strategy.select :
        Act (Engine (AnyStrategy G K) (Penalty K) Nat K) (Penalty K) K (Option (Proposal Nat K)))
      (fun p? e s => AtOptimum table e s ∧ ∀ p, p? = some p → p.Supplied Candidate.Fits s.model)
      (fun e s => e.strategy.restarts = 0 ∧ s.BestOptimal table) := by
    refine leads_of_at fun e s he => ?_
    have hready := AnyStrategy.select_leads (I := I) hG hrestore (.inr fun _ hs => hs.1.complete)
      fun _ _ hp => hp.unassignedCount_ne_zero
    have hcount := AnyStrategy.select_restarts (I := I) (r := 0) hG hrestore
      (fun _ hs => hs.1.complete) (not_keptByUnassign htable he.settled he.optimal)
      fun _ _ hp => hp.unassignedCount_ne_zero
    have hboth := (hready.mono_pre fun t s (h : (t.Ready ∧ t.restarts = 0) ∧ I s) =>
      ⟨h.1.1, h.2⟩).and hcount
    refine (leads_onStrategy (V := Nat) (F := fun e : Engine (AnyStrategy G K) (Penalty K) Nat K =>
      e.comparator = .general) (fun _ _ h => h) hboth).mono ?_ ?_ ?_
    · rintro _ _ ⟨rfl, rfl⟩
      exact ⟨he.ready.2, ⟨he.ready.1, he.restarts⟩, he.settled, he.optimal⟩
    · rintro p? e' s' ⟨hgeneral, ⟨hready, hI, hp⟩, hrestarts⟩
      exact ⟨⟨⟨hready, hgeneral⟩, hrestarts, hI.1, hI.2⟩, hp⟩
    · rintro e' s' ⟨-, hI, hrestarts⟩
      exact ⟨hrestarts, hI.2.best⟩
  refine (turn_leads stop time hselect
    (hears_of (fun _ _ _ h => ⟨h.ready, h.restarts, h.settled, h.optimal⟩)
      fun _ _ h => ⟨h.restarts, h.optimal.best⟩)
    fun e s p s' he _ honward _ =>
      ⟨he.restarts, he.optimal.best.of_best_eq honward.1⟩).mono_post ?_
  intro ending? e' s' h
  cases ending? with
  | some ending => exact ⟨h.restarts, h.optimal.best⟩
  | none =>
    obtain ⟨e, s, he, h⟩ := h
    obtain ⟨rfl, hs'⟩ := h.optimal he.ready.2 he.optimal
    exact ⟨he.ready, he.restarts, (h.settled he.ready he.settled).2, hs'⟩

end Engine

/-! ## While construction is at work -/

/-- An offer of construction can be committed, which gives the variable its option. -/
theorem Construction.Fills.exists_commit {p : Penalty K} {v option : Nat} {q : Proposal Nat K}
    (h : Construction.Fills table p v option q) : ∃ p' delta,
      Model.assign p v option = .ok p' ∧ q.commit p = .ok (.applied delta) p' := by
  obtain ⟨p', hassign⟩ : ∃ p', Model.assign p v option = .ok p' :=
    ⟨_, Penalty.assign_eq (List.getElem?_eq_some_iff.1 h.open).1⟩
  obtain ⟨delta, rfl⟩ := h.gives
  have hcommit := ChangeMove.commit_of_assign (m := ⟨v, some option, delta⟩) rfl hassign
  exact ⟨p', delta, hassign, Attempt.bind_of_ok hcommit⟩

/-- The first construction phase is not one after a restart. -/
theorem AnyStrategy.Filling.restarts_eq {G : Type} {t : AnyStrategy G K} {a : Table Nat}
    (ht : t.Filling a) : t.restarts = 0 := by
  cases t with
  | basic b => rfl
  | orchestrator o => exact ht.1.restarts_eq

omit [LinearOrder K] in
/-- No condition ends a search before the best state is complete, except after so many
iterations. -/
def Termination.Patient (n : Nat) (t : Termination) : Prop :=
  ∀ condition ∈ t, condition = .bestComplete ∨ ∃ limit, n ≤ limit ∧ condition = .iterations limit

theorem Termination.Patient.holds_eq_false {n : Nat} {t : Termination} {s : Solution (Penalty K) K}
    (ht : t.Patient n) (htotal : s.totalIterations < n) (hbest : s.isBestComplete = false) :
    t.holds s = false := by
  refine List.any_eq_false.2 fun condition hmem => ?_
  rcases ht condition hmem with rfl | ⟨limit, hlimit, rfl⟩
  · simp [Condition.holds, hbest]
  · simpa [Condition.holds] using Nat.lt_of_lt_of_le htotal hlimit

namespace Engine

variable {G : Type} {e e' : Engine (AnyStrategy G K) (Penalty K) Nat K}
  {s s' : Solution (Penalty K) K} {k : Nat}

/-- What holds after `k` passes of construction, apart from what is kept as the best state. -/
structure Advanced (table : List (List K)) (k : Nat) (e : Engine (AnyStrategy G K) (Penalty K) Nat K)
    (s : Solution (Penalty K) K) : Prop where
  general : e.comparator = .general
  permissive : e.observers.Permissive
  patient : e.termination.Patient table.length
  filling : e.strategy.Filling s.model.assigned
  cheap : s.model.Cheap table
  open_eq : Model.unassignedCount s.model + k = table.length
  total_eq : s.totalIterations = k
  recorded : s.Recorded
  /-- The best state does not leave fewer variables unassigned. -/
  ahead : Model.unassignedCount s.model ≤ Model.bestUnassignedCount s.model

/-- What holds before pass `k + 1` while construction is at work, and once it is done. -/
structure Building (table : List (List K)) (k : Nat) (e : Engine (AnyStrategy G K) (Penalty K) Nat K)
    (s : Solution (Penalty K) K) : Prop extends Advanced table k e s where
  optimal : Model.unassignedCount s.model = 0 → s.Optimal table

/-- The best state is not complete as long as the assignment is not. -/
theorem Advanced.isBestComplete_eq_false (h : Advanced table k e s)
    (hopen : Model.unassignedCount s.model ≠ 0) : s.isBestComplete = false := by
  unfold Solution.isBestComplete
  cases hbest : s.best with
  | none => rfl
  | some b =>
    obtain ⟨best, hkept, -, hcomplete⟩ := h.recorded b hbest
    refine Bool.eq_false_iff.2 fun htrue => hopen ?_
    have hcount := Model.Tabular.bestUnassignedCount_eq hkept
    rw [hcomplete.1 htrue] at hcount
    exact Nat.le_zero.1 (hcount ▸ h.ahead)

variable [MoveGenerator G (Penalty K) Nat K]

omit [MoveGenerator G (Penalty K) Nat K] in
theorem SaveStep.assigned {S : Type} [Strategy S (Penalty K) Nat K]
    {e e' : Engine S (Penalty K) Nat K} (h : SaveStep e s e' s') :
    Model.Tables.assigned s'.model = Model.Tables.assigned s.model := by
  cases h with
  | skipped => rfl
  | saved _ hsaved =>
    obtain ⟨b, -, rfl⟩ := hsaved
    rfl

/-- Once every variable has an option, the assignment is kept as the best one. -/
theorem SaveStep.building (h : SaveStep e s e' s') (hs : Advanced table k e s)
    (hincomplete : s.isBestComplete = false) : Building table k e' s' := by
  cases h with
  | skipped hdue =>
    refine ⟨hs, fun hzero => ?_⟩
    have hcomplete := isBestComplete_of_not_due hs.general hs.recorded hdue hzero
    exact absurd (hincomplete.symm.trans hcomplete) Bool.false_ne_true
  | saved hdue hsaved =>
    have hrecorded := (hsaved.steady (Penalty.clashFree _ _)).1.recorded
    obtain ⟨b, hb, rfl⟩ := hsaved
    obtain ⟨-, hvalue, hcomplete⟩ := Solution.of_snapshot_eq_ok hb
    have hcheap : Penalty.Cheap table (Model.saveBest s.model) :=
      ⟨hs.cheap.table_eq, hs.cheap.length_assigned, hs.cheap.cheapest⟩
    refine ⟨⟨hs.general, hs.permissive, hs.patient, AnyStrategy.filling_bestSaved hs.filling, hcheap,
      hs.open_eq, hs.total_eq, hrecorded, Nat.le_refl _⟩, fun hzero => ?_⟩
    refine ⟨hcheap.table_eq, hcheap.length_assigned,
      ⟨s.model.assigned, rfl, hcheap.length_assigned, hzero⟩, b, rfl, ?_, ?_⟩
    · rw [hcomplete]
      exact beq_iff_eq.2 hzero
    · have htotal := hcheap.totalValue hzero
      exact Except.ok.inj (hvalue.symm.trans htotal)

omit [MoveGenerator G (Penalty K) Nat K] in
/-- With options of their own rows every state can be compared and recorded. -/
theorem not_unsavable (hgeneral : e.comparator = .general) (hfilled : s.model.Filled table) :
    ¬ e.Unsavable s := by
  obtain ⟨total, htotal⟩ := hfilled.exists_totalValue
  rintro (hbetter | hsnapshot)
  · obtain ⟨better, h⟩ := Comparator.exists_general_isBetter (s := s) htotal
    exact hbetter better (hgeneral ▸ h)
  · exact Penalty.not_unrecordable hfilled hsnapshot

omit [MoveGenerator G (Penalty K) Nat K] in
/-- A selection that leaves the solution alone and proposes to fill a variable. Once the variable has
its option, the strategy is busy with construction again. The guards still stop nothing. -/
def Fills (table : List (List K)) (e : Engine (AnyStrategy G K) (Penalty K) Nat K)
    (s : Solution (Penalty K) K) (q? : Option (Proposal Nat K))
    (e' : Engine (AnyStrategy G K) (Penalty K) Nat K) (s' : Solution (Penalty K) K) : Prop :=
  s' = s ∧ ∃ v option q strategy observers, q? = some q ∧
    Construction.Fills table s.model v option q ∧ e' = { e with strategy, observers } ∧
    observers.Permissive ∧
    ∀ p', Model.assign s.model v option = .ok p' → strategy.Filling p'.assigned

/-- The selection of a pass while construction is at work. No guard stops it. -/
theorem select_fills [IsStrictOrderedRing K] (hrows : [] ∉ table) (h : Advanced table k e s)
    (hopen : Model.unassignedCount s.model ≠ 0) :
    Leads (At e s)
      (select : Act (Engine (AnyStrategy G K) (Penalty K) Nat K) (Penalty K) K _)
      (Fills table e s) (fun _ _ => False) := by
  have hselect := AnyStrategy.select_fills h.cheap.filled hrows hopen h.filling
  have hfills : Leads (At e s)
      (onStrategy Strategy.select :
        Act (Engine (AnyStrategy G K) (Penalty K) Nat K) (Penalty K) K (Option (Proposal Nat K)))
      (Fills table e s) (fun _ _ => False) := by
    refine leads_within ?_
    rintro _ _ ⟨rfl, rfl⟩
    exact hselect.mono_post fun q? strategy s' ⟨hs, v, option, q, hq, hfills, hfilling⟩ =>
      ⟨hs, v, option, q, strategy, _, hq, hfills, rfl, h.permissive, hfilling⟩
  have hpermissive {q? : Option (Proposal Nat K)} {e' : Engine (AnyStrategy G K) (Penalty K) Nat K}
      {s' : Solution (Penalty K) K} (ht : Fills table e s q? e' s') : e'.observers.Permissive := by
    obtain ⟨-, v, option, q, strategy, observers, -, -, he, hobservers, -⟩ := ht
    rw [he]
    exact hobservers
  refine ensures_select hfills (fun _ ht => ht) (fun t q kept ht hanswer => ?_)
    fun t q fault ht hanswer => ?_
  · obtain rfl : true = kept :=
      Except.ok.inj (((hpermissive ht).answer_eq _ q).symm.trans hanswer)
    have hheard := (hpermissive ht).heard t.2.solution.iteration q
    obtain ⟨hs, v, option, _, strategy, observers, hq, hfills, he, -, hfilling⟩ := ht
    refine ⟨hs, v, option, _, strategy, _, hq, hfills, ?_, hheard, hfilling⟩
    show t.1.heard t.2.solution.iteration q = _
    unfold heard
    rw [he]
  · cases ((hpermissive ht).answer_eq _ q).symm.trans hanswer

omit [MoveGenerator G (Penalty K) Nat K] in
/-- The variable has its option after the pass, and the others are as they were. -/
theorem Building.advance {v option : Nat} {q : Proposal Nat K} {strategy : AnyStrategy G K}
    {observers : Observers Nat K} {p' : Penalty K} (h : Building table k e s)
    (hfills : Construction.Fills table s.model v option q)
    (hassign : Model.assign s.model v option = .ok p') (hpermissive : observers.Permissive)
    (hfilling : strategy.Filling p'.assigned) (time : K) :
    Advanced table (k + 1) { e with strategy, observers }
        (Solution.update { s with model := p' } time) ∧
      Solution.isBestComplete (Solution.update { s with model := p' } time) = false := by
  have hcount := hfills.unassignedCount_succ hassign
  have hcheap := h.cheap.assign hfills.cheapest hassign
  have hrecorded : Solution.Recorded (Solution.update { s with model := p' } time) :=
    h.recorded.of_becomes rfl (Model.becomes_assign hassign)
  refine ⟨⟨h.general, hpermissive, h.patient, hfilling, hcheap, ?_, congrArg (· + 1) h.total_eq,
    hrecorded, ?_⟩, h.isBestComplete_eq_false (by omega)⟩
  · have hopen := h.open_eq
    show Model.unassignedCount p' + (k + 1) = table.length
    omega
  · have hahead := h.ahead
    show Model.unassignedCount p' ≤ Model.bestUnassignedCount p'
    rw [Model.CountsBest.bestUnassignedCount_assign hassign]
    omega

/-- What comes of committing an offer that can be committed and leaves a state that can be
recorded. -/
theorem commit_building {q : Proposal Nat K} {delta : K} {p' : Penalty K}
    (hcommit : q.commit s.model = .ok (.applied delta) p') (time : K)
    (h : Advanced table k e (Solution.update { s with model := p' } time))
    (hincomplete : Solution.isBestComplete (Solution.update { s with model := p' } time) = false) :
    Leads (At e s)
      (commit q time : Act (Engine (AnyStrategy G K) (Penalty K) Nat K) (Penalty K) K Unit)
      (fun _ e' s' => Building table k e' s' ∧ Model.Tables.assigned s'.model = p'.assigned)
      (fun _ _ => False) := by
  refine (commit_leads q time e s).mono (fun _ _ h => h) (fun _ e' s' hcommitted => ?_)
    fun _ _ herror => ?_
  · cases hcommitted with
    | applied hrun hsave =>
      cases hcommit.symm.trans hrun
      exact ⟨hsave.building h hincomplete, hsave.assigned⟩
    | rejected hrun => cases hcommit.symm.trans hrun
  · rcases herror.2.2 with hnone | ⟨delta', m, hrun, hunsavable⟩
    · exact hnone _ _ hcommit
    · cases hcommit.symm.trans hrun
      exact not_unsavable h.general h.cheap.filled hunsavable

/-- A pass that selects an offer of construction and applies it. -/
def Constructs {S M V α : Type} [Scalar α] [Model M V α] [Model.Tables M V] [Strategy S M V α]
    (e : Engine S M V α) (w w' : World M α) : Prop :=
  ∃ (q : Proposal V α) (left : Engine S M V α × World M α) (delta : α) (m : M),
    Engine.select (e, w) = .ok (some q) left ∧ left.2.solution = w.solution ∧
    Construction.Offers w.solution.model q ∧ q.commit w.solution.model = .ok (.applied delta) m ∧
    Model.Tables.assigned w'.solution.model = Model.Tables.assigned m

/-- While construction is at work a turn is a pass that applies one of its offers. -/
theorem exists_turn_constructs [IsStrictOrderedRing K] (hrows : [] ∉ table) {w : World (Penalty K) K}
    (h : Building table k e w.solution) (hk : k < table.length) (time : K) :
    ∃ e' w', turn (S := AnyStrategy G K) (V := Nat) false time (e, w) = .ok none (e', w') ∧
      Building table (k + 1) e' w'.solution ∧ Constructs e w w' := by
  have hopen : Model.unassignedCount w.solution.model ≠ 0 := by
    have := h.open_eq
    omega
  have hpatient : e.termination.holds w.solution = false :=
    h.patient.holds_eq_false (h.total_eq ▸ hk) (h.isBestComplete_eq_false hopen)
  obtain ⟨q?, ⟨e₁, w₁⟩, hselect, hw₁, v, option, q, strategy, observers, rfl, hfills, rfl,
    hpermissive, hfilling⟩ :=
    (select_fills hrows h.toAdvanced hopen).exists_ok (s := (e, w)) ⟨rfl, rfl⟩
  obtain ⟨p', delta, hassign, hcommit⟩ := hfills.exists_commit
  obtain ⟨hadvanced, hincomplete⟩ := h.advance hfills hassign hpermissive (hfilling p' hassign) time
  obtain ⟨_, ⟨e', w'⟩, hrun, hbuilding, hassigned⟩ :=
    (commit_building hcommit time hadvanced hincomplete).exists_ok
      (s := ({ e with strategy, observers }, w₁)) ⟨rfl, hw₁⟩
  have hpass : pass (S := AnyStrategy G K) (V := Nat) time (e, w) = .ok () (e', w') := by
    unfold pass
    rw [Attempt.bind_of_ok hselect]
    exact hrun
  refine ⟨e', w', ?_, hbuilding, q, _, delta, p', hselect, hw₁, hfills.offers, hcommit, hassigned⟩
  unfold turn
  have hget : (get : Act (Engine (AnyStrategy G K) (Penalty K) Nat K) (Penalty K) K _) (e, w) =
      .ok (e, w) (e, w) := rfl
  rw [if_neg Bool.false_ne_true, Attempt.bind_of_ok hget]
  dsimp only
  rw [hpatient, if_neg Bool.false_ne_true, Attempt.bind_of_ok hpass]
  rfl

/-! ## The opening -/

omit [MoveGenerator G (Penalty K) Nat K] in
/-- What holds before the opening of a search that begins with construction. -/
structure Starting (table : List (List K)) (config : ConstructionConfig K)
    (e : Engine (AnyStrategy G K) (Penalty K) Nat K) (s : Solution (Penalty K) K) : Prop where
  general : e.comparator = .general
  permissive : e.observers.Permissive
  patient : e.termination.Patient table.length
  alone : e.extensions.members = []
  begins : e.strategy.Begins config
  restarts : e.strategy.restarts = 0
  model_eq : s.model = Penalty.ofTable table
  total_eq : s.totalIterations = 0
  best_eq : s.best = none

/-- The opening does not fail, and construction is at work after it. -/
theorem opening_building {config : ConstructionConfig K} (hG : MoveGenerator.Prepares G (Penalty K))
    (htable : table ≠ []) (hweight : 0 < config.valueWeight) :
    Leads (Starting table config)
      (opening : Act (Engine (AnyStrategy G K) (Penalty K) Nat K) (Penalty K) K Bool)
      (fun nothing e s => nothing = false ∧ Building table 0 e s) (fun _ _ => False) := by
  let F (e : Engine (AnyStrategy G K) (Penalty K) Nat K) : Prop :=
    e.comparator = .general ∧ e.observers.Permissive ∧ e.termination.Patient table.length ∧
      e.extensions.members = []
  let I (s : Solution (Penalty K) K) : Prop :=
    s.model = Penalty.ofTable table ∧ s.totalIterations = 0 ∧ s.best = none
  have hsize (s : Solution (Penalty K) K) (hs : I s) :
      ∃ n, Model.totalDomainSize s.model = .ok n := by
    rw [hs.1]
    exact (Penalty.cheap_ofTable table).filled.exists_totalDomainSize
  have hinit := leads_onStrategy (V := Nat) (F := F) (fun _ _ h => h)
    (AnyStrategy.init_fresh (I := I) (E := fun _ => False) hG hsize config)
  have hextensions : Leads (fun e s => F e ∧ I s ∧ e.strategy.Fresh config)
      (onExtensions Extensions.init :
        Act (Engine (AnyStrategy G K) (Penalty K) Nat K) (Penalty K) K Unit)
      (fun _ e s => F e ∧ I s ∧ e.strategy.Fresh config) (fun _ _ => False) := by
    refine leads_within fun e s h => ?_
    unfold Extensions.init
    refine leads_part_bind_at ?_
    rw [h.1.2.2.2]
    refine leads_pure ?_
    rintro _ _ ⟨rfl, rfl⟩
    exact h
  have hadvanced (e : Engine (AnyStrategy G K) (Penalty K) Nat K) (s : Solution (Penalty K) K)
      (h : F e ∧ I s ∧ e.strategy.Fresh config) : Advanced table 0 e s := by
    obtain ⟨⟨hgeneral, hpermissive, hpatient, -⟩, ⟨hmodel, htotal, hbest⟩, hfresh⟩ := h
    have hfilling := AnyStrategy.filling_of_fresh hfresh hweight s.model.assigned
    refine ⟨hgeneral, hpermissive, hpatient, hfilling, ?_, ?_, htotal, ?_, ?_⟩
    · rw [hmodel]
      exact Penalty.cheap_ofTable table
    · rw [hmodel]
      exact Penalty.unassignedCount_ofTable table
    · intro b hb
      cases hbest.symm.trans hb
    · rw [hmodel, Penalty.unassignedCount_ofTable]
      exact Nat.le_of_eq (List.length_map _).symm
  refine (opening_leads (hinit.mono (fun e s h => ?_) (fun _ _ _ h => h) fun _ _ h => h.2)
    hextensions (fun e s h hnone => ?_) fun e s s' h _ hunsavable => ?_).mono_post ?_
  · exact ⟨⟨h.general, h.permissive, h.patient, h.alone⟩, ⟨h.model_eq, h.total_eq, h.best_eq⟩,
      h.begins⟩
  · obtain ⟨total, htotal⟩ := (hadvanced e s h).cheap.filled.exists_totalValue
    exact hnone total htotal
  · exact not_unsavable h.1.1 (hadvanced e s h).cheap.filled hunsavable
  · rintro nothing e' s' ⟨⟨e, s, h, hsave⟩, hnothing⟩
    have hincomplete : s.isBestComplete = false := by
      unfold Solution.isBestComplete
      rw [h.2.1.2.2]
    have hbuilding := hsave.building (hadvanced e s h) hincomplete
    refine ⟨Bool.eq_false_iff.2 fun htrue => htable (List.length_eq_zero_iff.1 ?_), hbuilding⟩
    exact hbuilding.cheap.length_assigned.symm.trans (hnothing.1 htrue)

end Engine

/-! ## Searches -/

namespace Solver

section

variable {S M V α : Type} [Scalar α] [Model M V α] [Strategy S M V α] {s s' : Solver S M V α}

/-- The next step of the worker is a pass, and it selects an offer of construction and applies it. -/
def Constructs [Model.Tables M V] (s : Solver S M V α) (pass : Nat) : Prop :=
  ∃ e e', s.worker = some ⟨e, .passing pass⟩ ∧ s.work.worker = some ⟨e', .passing (pass + 1)⟩ ∧
    e.Constructs s.world s.work.world

end

variable {G : Type} {s s' : Solver (AnyStrategy G K) (Penalty K) Nat K}
  {e : Engine (AnyStrategy G K) (Penalty K) Nat K} {k : Nat}

/-- A search after `k` passes of construction, which nobody asked to stop. -/
def Building (table : List (List K)) (k : Nat) (s : Solver (AnyStrategy G K) (Penalty K) Nat K) :
    Prop :=
  ∃ e, s.worker = some ⟨e, .passing (k + 1)⟩ ∧ s.stopRequested = false ∧
    e.Building table k s.world.solution

/-- What holds at every stage of a search once construction is done. -/
def Constructed (table : List (List K)) (s : Solver (AnyStrategy G K) (Penalty K) Nat K) : Prop :=
  During (fun _ _ => False) (Engine.AtOptimum table)
    (fun e t => e.strategy.restarts = 0 ∧ t.BestOptimal table) s

theorem constructed_of_building (h : s.Building table table.length) : s.Constructed table := by
  obtain ⟨e, hworker, -, he⟩ := h
  intro w hw
  cases hworker.symm.trans hw
  have hzero : Model.unassignedCount s.world.solution.model = 0 := by
    have := he.open_eq
    omega
  have hoptimal := he.optimal hzero
  have hcomplete : s.world.solution.isBestComplete = true := by
    obtain ⟨b, hb, hcomplete, -⟩ := hoptimal.best
    simp [Solution.isBestComplete, hb, hcomplete]
  exact ⟨⟨he.filling.ready, he.general⟩, he.filling.restarts_eq,
    ⟨⟨Penalty.clashFree _ _, he.recorded, fun _ => hcomplete⟩, hzero⟩, hoptimal⟩

theorem Constructed.bestOptimal {w : Worker (AnyStrategy G K) (Penalty K) Nat K}
    (h : s.Constructed table) (hw : s.worker = some w) :
    w.engine.strategy.restarts = 0 ∧ s.world.solution.BestOptimal table := by
  have hstage := h w hw
  cases hcase : w.stage with
  | opening =>
    rw [hcase] at hstage
    exact hstage.elim
  | passing pass =>
    rw [hcase] at hstage
    exact ⟨hstage.restarts, hstage.optimal.best⟩
  | closed state => rwa [hcase] at hstage
  | ended => rwa [hcase] at hstage

variable [MoveGenerator G (Penalty K) Nat K]

/-- Construction is at work after the opening. -/
theorem building_zero {config : ConstructionConfig K}
    (hG : MoveGenerator.Prepares G (Penalty K)) (htable : table ≠ [])
    (hweight : 0 < config.valueWeight) (hworker : s.worker = some ⟨e, .opening⟩)
    (hstop : s.stopRequested = false) (he : e.Starting table config s.world.solution) :
    s.work.Building table 0 := by
  obtain ⟨nothing, ⟨e', w'⟩, hrun, hnothing, hbuilding⟩ :=
    (Engine.opening_building hG htable hweight).exists_ok (s := (e, s.world)) he
  rw [work_of_opening_ok hworker hrun]
  exact ⟨e', rfl, by simp [hstop, hnothing], hbuilding⟩

variable [IsStrictOrderedRing K]

/-- A pass of construction, after which construction is at work or done. -/
theorem building_work (hrows : [] ∉ table) (h : s.Building table k) (hk : k < table.length) :
    s.work.Building table (k + 1) ∧ s.Constructs (k + 1) := by
  obtain ⟨e, hworker, hstop, he⟩ := h
  obtain ⟨e', w', hrun, hbuilding, hconstructs⟩ :=
    Engine.exists_turn_constructs hrows he hk (s.clock (k + 1))
  rw [← hstop] at hrun
  rw [Constructs, work_of_turn_none hworker hrun]
  exact ⟨⟨e', rfl, hstop, hbuilding⟩, e, e', hworker, rfl, hconstructs⟩

/-- A search on independent penalties that begins with construction and that nobody asks to stop.
Every pass up to the number of variables applies an offer of construction, there is never a restart,
and from then on the best state is optimal, whatever comes later and however the search ends. -/
theorem optimal_of_starting {config : ConstructionConfig K}
    (hG : MoveGenerator.Proposes G (Candidate.Fits (M := Penalty K) (V := Nat) (α := K)))
    (hinit : MoveGenerator.Prepares G (Penalty K)) (htable : table ≠ []) (hrows : [] ∉ table)
    (hweight : 0 < config.valueWeight) (hworker : s.worker = some ⟨e, .opening⟩)
    (hstop : s.stopRequested = false) (he : e.Starting table config s.world.solution) :
    (∀ k < table.length, (work^[k + 1] s).Constructs (k + 1)) ∧
    (∀ m w, (work^[m] s).worker = some w → w.engine.strategy.restarts = 0) ∧
    ∀ s', Steps (work^[table.length + 1] s) s' → s'.world.solution.BestOptimal table := by
  have hbuilding (k : Nat) (hk : k ≤ table.length) : (work^[k + 1] s).Building table k := by
    induction k with
    | zero => exact building_zero hinit htable hweight hworker hstop he
    | succ k ih =>
      rw [Function.iterate_succ_apply']
      exact (building_work hrows (ih (Nat.le_of_succ_le hk)) hk).1
  have hlater (s' : Solver (AnyStrategy G K) (Penalty K) Nat K)
      (hsteps : Steps (work^[table.length + 1] s) s') : s'.Constructed table :=
    During.steps (fun _ h => h.elim) (Engine.turn_optimal hG htable)
      (constructed_of_building (hbuilding table.length (Nat.le_refl _))) hsteps
  refine ⟨fun k hk => ?_, fun m w hw => ?_, fun s' hsteps => ?_⟩
  · exact (building_work hrows (hbuilding k (Nat.le_of_lt hk)) hk).2
  · -- before the opening, while construction is at work, or after that
    cases m with
    | zero =>
      cases hworker.symm.trans hw
      exact he.restarts
    | succ k =>
      rcases Nat.lt_or_ge k table.length with hk | hk
      · obtain ⟨e', hworker', -, he'⟩ := hbuilding k (Nat.le_of_lt hk)
        cases hworker'.symm.trans hw
        exact he'.filling.restarts_eq
      · have hsum : k + 1 = (k - table.length) + (table.length + 1) := by omega
        rw [hsum, Function.iterate_add_apply] at hw
        exact ((hlater _ (steps_iterate _ _)).bestOptimal hw).1
  · obtain ⟨e', hworker', -, -⟩ := hbuilding table.length (Nat.le_refl _)
    obtain ⟨w, hw⟩ := worker_of_steps hworker' hsteps
    exact ((hlater s' hsteps).bestOptimal hw).2

end Solver

end LocalSearch
