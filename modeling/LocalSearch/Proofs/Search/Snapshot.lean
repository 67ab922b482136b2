import LocalSearch.Proofs.Exact
import LocalSearch.Proofs.Model.Atomic
import LocalSearch.Proofs.Model.Reset
import LocalSearch.Proofs.Search.Engine
/-!
# Two records of the best state

The best state is recorded twice: the model keeps the assignment, and the solution keeps a snapshot
with the value, the iteration and the time. Nothing but the order of the operations ties the two
together.

* `Model.Priced`: models whose total value is a function of the assignment that no operation changes.
* `Solution.Edit`: everything that may happen to a solution and its model.
* `Solution.InStep`, `Edit.run_inStep`: both records are of one state, and every edit sees to it,
  with one exception: a save that fails after the model has kept its assignment (`Solution.Torn`).
* `Solution.performed_agrees`: what this says about any number of edits.
* `Timetable.not_torn`, `Penalty.not_unrecordable`: on timetables no save fails, and on independent
  penalties none does while every option is one of its own row.
-/

namespace LocalSearch

open Attempt
open Model.Tables (assigned kept clash)

/-! ## The value of an assignment -/

/-- A model whose total value is that of its assignment. What an assignment is worth never
changes. -/
class Model.Priced (M : Type) {V α : outParam Type} [Model M V α] extends Model.Resettable M where
  /-- The total value that an assignment has or would have. -/
  price : M → Table V → Except Fault α
  totalValue_eq (m : M) : Model.totalValue m = price m (assigned m)
  price_assign {m m' : M} {v : Nat} {x : V} : Model.assign m v x = .ok m' → price m' = price m
  price_unassign {m m' : M} {v : Nat} : Model.unassign m v = .ok m' → price m' = price m
  price_spoiled (m : M) : price (Model.spoiled m) = price m
  price_saveBest (m : M) : price (Model.saveBest m) = price m
  price_restoreBest (m : M) : price (Model.restoreBest m) = price m
  restoreBest_restoreBest (m : M) :
    Model.restoreBest (Model.restoreBest m) = Model.restoreBest m
  kept_clearBest (m : M) : kept (Model.clearBest m) = none

instance Penalty.priced {α : Type} [Scalar α] : Model.Priced (Penalty α) where
  price p a := Penalty.totalValue { p with assigned := a }
  totalValue_eq _ := rfl
  price_assign h := by
    obtain ⟨a, -, h⟩ := bind_eq_ok_iff.1 h
    cases h
    rfl
  price_unassign h := by
    obtain ⟨a, -, h⟩ := bind_eq_ok_iff.1 h
    cases h
    rfl
  price_spoiled _ := rfl
  price_saveBest _ := rfl
  price_restoreBest _ := rfl
  restoreBest_restoreBest p := by
    obtain ⟨table, assigned, best, assignments⟩ := p
    cases best with
    | none => simp [Model.restoreBest]
    | some k => rfl
  kept_clearBest _ := rfl

instance Timetable.priced {α : Type} [Scalar α] : Model.Priced (Timetable α) where
  price t a := .ok (t.totalOf a)
  totalValue_eq _ := rfl
  price_assign h := by
    obtain ⟨a, -, h⟩ := bind_eq_ok_iff.1 h
    cases h
    rfl
  price_unassign h := by
    obtain ⟨a, -, h⟩ := bind_eq_ok_iff.1 h
    cases h
    rfl
  price_spoiled _ := rfl
  price_saveBest _ := rfl
  price_restoreBest _ := rfl
  restoreBest_restoreBest _ := rfl
  kept_clearBest _ := rfl

namespace Solution

variable {M V α : Type} [Model M V α] [Scalar α]

/-! ## Edits -/

/-- What may happen to a solution and to the model in it. -/
inductive Edit (M V α : Type)
  | update (time : α)
  | saveBest
  | restoreBest
  | clearBest
  | assign (v : Nat) (x : V)
  | unassign (v : Nat)
  /-- The commit of a move, which may have been proposed for another assignment. -/
  | move (m : Move V α)
  /-- The commit of a lazy change, with the predicate that decides on it. -/
  | lazy (c : LazyChange V) (accept : M → α → α → Bool)

/-- What is done to the model alone. -/
def onModel {β : Type} (x : Attempt M β) : Attempt (Solution M α) β :=
  focus Solution.model (fun s model => { s with model }) x

namespace Edit

/-- Makes an edit. -/
def run : Edit M V α → Attempt (Solution M α) Unit
  | update time => modify (Solution.update · time)
  | saveBest => Solution.saveBest
  | restoreBest => modify Solution.restoreBest
  | clearBest => modify Solution.clearBest
  | assign v x => onModel (Model.put v x)
  | unassign v => onModel (Attempt.update (Model.unassign · v))
  | move m => onModel m.commit
  | lazy c accept => onModel do
    let _ ← c.commit accept

/-- Whether the edit counts an iteration. -/
def counts : Edit M V α → Bool
  | update _ => true
  | _ => false

/-- Whether the records of the best state are of different states after the edit, given whether they
were before. -/
def tears (s : Solution M α) (torn : Prop) : Edit M V α → Prop
  | saveBest => s.Unrecordable
  | clearBest => False
  | _ => torn

end Edit

/-- One edit after the other. A failing one leaves what it has done up to there, and the next one
goes on from that. -/
def performed (edits : List (Edit M V α)) (s : Solution M α) : Solution M α :=
  edits.foldl (fun s e => after e.run s) s

/-- A save has failed after the model kept its assignment, and since then nothing was saved and
nothing was cleared. -/
def Torn (s : Solution M α) (torn : Prop) : List (Edit M V α) → Prop
  | [] => torn
  | e :: rest => Torn (after e.run s) (e.tears s torn) rest

@[simp]
theorem performed_nil (s : Solution M α) : performed ([] : List (Edit M V α)) s = s := rfl

@[simp]
theorem performed_cons (e : Edit M V α) (edits : List (Edit M V α)) (s : Solution M α) :
    performed (e :: edits) s = performed edits (after e.run s) := rfl

omit [Scalar α] in
/-- An edit of the model leaves the rest of the solution as it is, and of the model what assigning
and unassigning leave. -/
theorem ensures_onModel {J : M → Prop} {β : Type} {x : Attempt M β}
    (hx : Ensures J x (fun _ => J) J) (s : Solution M α) (hs : J s.model) :
    ∃ m, after (onModel x) s = { s with model := m } ∧ J m := by
  have hend : Ensures (· = s) (onModel x) (fun _ s' => ∃ m, s' = { s with model := m } ∧ J m)
      (fun s' => ∃ m, s' = { s with model := m } ∧ J m) := by
    refine ensures_focus fun t ht => ?_
    subst ht
    have hmodel : ∀ m, m = t.model → J m := fun m hm => hm ▸ hs
    exact (hx.mono_pre hmodel).mono (fun _ h => h) (fun _ m hm => ⟨m, rfl, hm⟩)
      fun m hm => ⟨m, rfl, hm⟩
  exact hend.after rfl

/-- What an edit does is one of the four operations on solutions, or it changes the model by
assigning and unassigning. -/
theorem Edit.run_cases {J : M → Prop} (hJ : Model.Invariant J) (s : Solution M α) (hs : J s.model)
    (e : Edit M V α) :
    (∃ time, e = update time) ∨ e = saveBest ∨ e = restoreBest ∨ e = clearBest ∨
      (e.counts = false ∧ (∀ torn, e.tears s torn = torn) ∧
        ∃ m, after e.run s = { s with model := m } ∧ J m) := by
  cases e with
  | update time => exact .inl ⟨time, rfl⟩
  | saveBest => exact .inr (.inl rfl)
  | restoreBest => exact .inr (.inr (.inl rfl))
  | clearBest => exact .inr (.inr (.inr (.inl rfl)))
  | assign v x =>
    exact .inr (.inr (.inr (.inr ⟨rfl, fun _ => rfl,
      ensures_onModel (hJ.ensures_put v x) s hs⟩)))
  | unassign v =>
    exact .inr (.inr (.inr (.inr ⟨rfl, fun _ => rfl,
      ensures_onModel (hJ.ensures_unassign v) s hs⟩)))
  | move m =>
    exact .inr (.inr (.inr (.inr ⟨rfl, fun _ => rfl,
      ensures_onModel (m.commit_ensures hJ) s hs⟩)))
  | lazy c accept =>
    refine .inr (.inr (.inr (.inr ⟨rfl, fun _ => rfl, ensures_onModel ?_ s hs⟩)))
    exact Ensures.bind (c.commit_ensures hJ accept) fun _ => ensures_pure fun _ h => h

omit [Scalar α] in
theorem restoreBest_of_best {s : Solution M α} {best : Snapshot α} (h : s.best = some best) :
    s.restoreBest =
      { s with iteration := best.iteration, time := best.time,
               model := Model.restoreBest s.model } := by
  simp only [Solution.restoreBest, h]

omit [Scalar α] in
theorem restoreBest_of_none {s : Solution M α} (h : s.best = none) : s.restoreBest = s := by
  simp only [Solution.restoreBest, h]

/-! ## The counters -/

/-- The iterations of the current and of the best state are not ahead of the count of updates. -/
structure Paced (s : Solution M α) : Prop where
  iteration_le : s.iteration ≤ s.totalIterations
  best_le : ∀ best, s.best = some best → best.iteration ≤ s.totalIterations

/-- What a save leaves of the counters. -/
theorem paced_saveBest {s : Solution M α} (hs : s.Paced) :
    let s' := after (Solution.saveBest : Attempt (Solution M α) Unit) s
    s'.Paced ∧ s'.totalIterations = s.totalIterations := by
  have hend : Ensures (· = s) (Solution.saveBest : Attempt (Solution M α) Unit)
      (fun _ s' => s'.Paced ∧ s'.totalIterations = s.totalIterations)
      (fun s' => s'.Paced ∧ s'.totalIterations = s.totalIterations) := by
    refine (saveBest_leaves s).mono (fun _ h => h) (fun _ s' h => ?_) fun s' h => ?_
    · obtain ⟨best, hbest, rfl⟩ := h
      refine ⟨⟨hs.iteration_le, fun best' h => ?_⟩, rfl⟩
      cases h
      exact (of_snapshot_eq_ok hbest).1 ▸ hs.iteration_le
    · obtain ⟨rfl, -⟩ := h
      exact ⟨⟨hs.iteration_le, hs.best_le⟩, rfl⟩
  exact hend.after rfl

omit [Scalar α] in
theorem paced_restoreBest {s : Solution M α} (hs : s.Paced) :
    s.restoreBest.Paced ∧ s.restoreBest.totalIterations = s.totalIterations := by
  cases hbest : s.best with
  | none =>
    rw [restoreBest_of_none hbest]
    exact ⟨hs, rfl⟩
  | some best =>
    rw [restoreBest_of_best hbest]
    exact ⟨⟨hs.best_le best hbest, hs.best_le⟩, rfl⟩

/-- An update counts one iteration, and no other edit counts any. -/
theorem Edit.run_paced {s : Solution M α} (hs : s.Paced) (e : Edit M V α) :
    (after e.run s).Paced ∧
      (after e.run s).totalIterations = s.totalIterations + if e.counts then 1 else 0 := by
  obtain ⟨time, rfl⟩ | rfl | rfl | rfl | ⟨hcounts, -, m, hrun, -⟩ :=
    e.run_cases (J := fun _ => True) ⟨fun _ _ => trivial, fun _ _ => trivial, id, fun _ => trivial⟩ s
      trivial
  · refine ⟨⟨Nat.succ_le_succ hs.iteration_le, fun best h => ?_⟩, rfl⟩
    exact Nat.le_succ_of_le (hs.best_le best h)
  · exact paced_saveBest hs
  · exact paced_restoreBest hs
  · refine ⟨⟨hs.iteration_le, fun best h => ?_⟩, rfl⟩
    cases h
  · rw [hrun, hcounts]
    exact ⟨⟨hs.iteration_le, hs.best_le⟩, rfl⟩

theorem performed_paced (edits : List (Edit M V α)) {s : Solution M α} (hs : s.Paced) :
    (performed edits s).Paced ∧
      (performed edits s).totalIterations = s.totalIterations + edits.countP Edit.counts := by
  induction edits generalizing s with
  | nil => exact ⟨hs, rfl⟩
  | cons e edits ih =>
    obtain ⟨hstep, hcount⟩ := e.run_paced hs
    obtain ⟨hpaced, htotal⟩ := ih hstep
    refine ⟨hpaced, ?_⟩
    rw [performed_cons, htotal, hcount, List.countP_cons, Nat.add_assoc]
    exact congrArg _ (Nat.add_comm _ _)

/-! ## The two records -/

variable [Model.Priced M]

/-- The snapshot and the model record the same state as the best one, or neither records any. -/
inductive InStep (s : Solution M α) : Prop
  | unsaved (hbest : s.best = none) (hkept : kept s.model = none)
  | saved {best : Snapshot α} {k : Table V} (hbest : s.best = some best)
    (hkept : kept s.model = some k) (hvalue : Model.Priced.price s.model k = .ok best.value)
    (hcomplete : best.complete = (k.openCount == 0))

omit [Scalar α] in
/-- Only the snapshot, the kept assignment and the value of assignments matter. -/
theorem InStep.of_eq {s s' : Solution M α} (hs : s.InStep) (hbest : s'.best = s.best)
    (hkept : kept s'.model = kept s.model)
    (hprice : (Model.Priced.price s'.model : Table V → Except Fault α) =
      Model.Priced.price s.model) : s'.InStep := by
  cases hs with
  | unsaved h hk => exact .unsaved (hbest.trans h) (hkept.trans hk)
  | saved h hk hvalue hcomplete =>
    exact .saved (hbest.trans h) (hkept.trans hk) ((congrFun hprice _).trans hvalue) hcomplete

omit [Scalar α] in
/-- Neither the kept assignment nor the value of assignments changes when the model is changed by
assigning and unassigning. -/
theorem invariant_kept (m₀ : M) : Model.Invariant fun m : M => kept m = kept m₀ ∧
    (Model.Priced.price m : Table V → Except Fault α) = Model.Priced.price m₀ where
  assign hm h :=
    ⟨(Model.becomes_assign h).kept.trans hm.1, (Model.Priced.price_assign h).trans hm.2⟩
  unassign hm h :=
    ⟨(Model.becomes_unassign h).kept.trans hm.1, (Model.Priced.price_unassign h).trans hm.2⟩
  failed hm := hm
  spoiled hm :=
    ⟨(Model.Tabular.spoiled_becomes _).kept.trans hm.1, (Model.Priced.price_spoiled _).trans hm.2⟩

/-- A completed save records one state twice, whatever was recorded before. -/
theorem Saved.inStep {s s' : Solution M α} (h : s.Saved s') : s'.InStep := by
  obtain ⟨best, hbest, rfl⟩ := h
  obtain ⟨-, hvalue, hcomplete⟩ := of_snapshot_eq_ok hbest
  refine .saved rfl (Model.Tabular.kept_saveBest s.model) ?_ ?_
  · have hprice := (Model.Priced.totalValue_eq (Model.saveBest s.model)).symm.trans hvalue
    rwa [Model.Tabular.assigned_saveBest] at hprice
  · rw [hcomplete, Model.isComplete, Model.Tabular.unassignedCount_eq,
      Model.Tabular.assigned_saveBest]

omit [Scalar α] in
theorem InStep.restoreBest {s : Solution M α} (hs : s.InStep) : s.restoreBest.InStep := by
  cases hbest : s.best with
  | none =>
    rw [restoreBest_of_none hbest]
    exact hs
  | some best =>
    rw [restoreBest_of_best hbest]
    exact hs.of_eq rfl (Model.becomes_restoreBest s.model).kept
      (Model.Priced.price_restoreBest s.model)

/-- Every edit but a failing save keeps the records of one state, and a completed save or clearing
both makes them so. -/
theorem Edit.run_inStep {s : Solution M α} {torn : Prop} (hs : ¬ torn → s.InStep) (e : Edit M V α)
    (htears : ¬ e.tears s torn) : (after e.run s).InStep := by
  obtain ⟨time, rfl⟩ | rfl | rfl | rfl | ⟨-, hsame, m, hrun, hkept, hprice⟩ :=
    e.run_cases (invariant_kept s.model) s ⟨rfl, rfl⟩
  · exact (hs htears).of_eq rfl rfl rfl
  · refine Ensures.after ((saveBest_leaves s).mono (fun _ h => h) (fun _ _ h => h.inStep)
      fun _ h => ?_) rfl
    exact (htears h.2).elim
  · exact (hs htears).restoreBest
  · exact .unsaved rfl (Model.Priced.kept_clearBest s.model)
  · rw [hrun]
    exact (hs (hsame torn ▸ htears)).of_eq rfl hkept hprice

theorem performed_inStep (edits : List (Edit M V α)) {s : Solution M α} {torn : Prop}
    (hs : ¬ torn → s.InStep) (h : ¬ s.Torn torn edits) : (performed edits s).InStep := by
  -- by induction on the edits; whether the records are torn is carried along with the solution
  induction edits generalizing s torn with
  | nil => exact hs h
  | cons e edits ih => exact ih (fun htears => e.run_inStep hs htears) h

/-! ## What the records say -/

/-- A solution after going back to the best state, of which `best` and `k` are the records. -/
structure Restored (best : Snapshot α) (k : Table V) (s : Solution M α) : Prop where
  assigned_eq : assigned s.model = k
  iteration_eq : s.iteration = best.iteration
  time_eq : s.time = best.time
  best_eq : s.best = some best
  totalValue_eq : Model.totalValue s.model = .ok s.bestValue
  unassignedCount_eq : Model.unassignedCount s.model = Model.bestUnassignedCount s.model
  not_better : Comparator.general.isBetter s = .ok false

/-- The solution and its model agree about the best state. -/
structure Agrees (s : Solution M α) : Prop where
  saved_iff : s.best.isSome = true ↔ (kept s.model).isSome = true
  value_eq : ∀ best k, s.best = some best → kept s.model = some k →
    Model.Priced.price s.model k = .ok best.value
  complete_iff : ∀ best, s.best = some best →
    (best.complete = true ↔ Model.bestUnassignedCount s.model = 0)
  restored : ∀ best k, s.best = some best → kept s.model = some k →
    s.restoreBest.Restored best k

theorem InStep.restored {s : Solution M α} {best : Snapshot α} {k : Table V}
    (hlt : ∀ x : α, ¬ x < x) (hbest : s.best = some best) (hkept : kept s.model = some k)
    (hvalue : Model.Priced.price s.model k = .ok best.value) : s.restoreBest.Restored best k := by
  have hback := Model.Tabular.restoreBest_becomes hkept
  have htotal : Model.totalValue (Model.restoreBest s.model) = .ok best.value := by
    rw [Model.Priced.totalValue_eq, hback.assigned, Model.Priced.price_restoreBest]
    exact hvalue
  have hcount : Model.unassignedCount (Model.restoreBest s.model) =
      Model.bestUnassignedCount (Model.restoreBest s.model) := by
    rw [Model.Tabular.unassignedCount_eq, hback.assigned,
      Model.Tabular.bestUnassignedCount_eq (hback.kept.trans hkept)]
  rw [restoreBest_of_best hbest]
  refine ⟨hback.assigned, rfl, rfl, hbest, ?_, hcount, ?_⟩
  · rw [htotal]
    simp only [bestValue, hbest]
  · -- as many variables are unassigned, so the total values decide, and these are the same
    simp only [Comparator.general, hbest, hcount, if_true]
    exact bind_eq_ok_iff.2 ⟨best.value, htotal, by simp [hlt best.value, pure, Except.pure]⟩

theorem InStep.agrees {s : Solution M α} (hlt : ∀ x : α, ¬ x < x) (hs : s.InStep) : s.Agrees := by
  cases hs with
  | unsaved hbest hkept =>
    refine ⟨by simp [hbest, hkept], fun _ _ h => ?_, fun _ h => ?_, fun _ _ h => ?_⟩
    all_goals cases hbest.symm.trans h
  | saved hbest hkept hvalue hcomplete =>
    refine ⟨by simp [hbest, hkept], fun best' k' h hk => ?_, fun best' h => ?_,
      fun best' k' h hk => ?_⟩
    · cases hbest.symm.trans h
      cases hkept.symm.trans hk
      exact hvalue
    · cases hbest.symm.trans h
      rw [hcomplete, Model.Tabular.bestUnassignedCount_eq hkept]
      exact beq_iff_eq
    · cases hbest.symm.trans h
      cases hkept.symm.trans hk
      exact InStep.restored hlt hbest hkept hvalue

omit [Scalar α] in
/-- Going back twice is going back once. -/
theorem restoreBest_restoreBest (s : Solution M α) : s.restoreBest.restoreBest = s.restoreBest := by
  cases hbest : s.best with
  | none => rw [restoreBest_of_none hbest, restoreBest_of_none hbest]
  | some best =>
    have hagain : s.restoreBest.best = some best := by
      rw [restoreBest_of_best hbest]
      exact hbest
    rw [restoreBest_of_best hagain, restoreBest_of_best hbest]
    simp only [Model.Priced.restoreBest_restoreBest]

/-- Whatever is done to a fresh solution of a model that keeps no best assignment: the updates are
counted, no best state is of a later iteration, and going back without a best state or once more
changes nothing. Unless a save has failed and nothing was saved or cleared since, the snapshot and
the model agree about the best state, and going back brings just that state. -/
theorem performed_agrees {model : M} (hkept : kept model = none) (hlt : ∀ x : α, ¬ x < x)
    (listeners : List SolutionListener) (perturbation : Option (M → α))
    (edits : List (Edit M V α)) :
    let start : Solution M α := { Solution.ofModel model with listeners, perturbation }
    let s := performed edits start
    s.totalIterations = edits.countP Edit.counts ∧
    (∀ best, s.best = some best → best.iteration ≤ s.totalIterations) ∧
    (s.best = none → s.restoreBest = s) ∧
    s.restoreBest.restoreBest = s.restoreBest ∧
    (¬ start.Torn False edits → s.Agrees) := by
  intro start s
  have hpaced : start.Paced := ⟨Nat.le_refl 0, fun _ h => by cases h⟩
  obtain ⟨hs, htotal⟩ := performed_paced edits hpaced
  refine ⟨htotal.trans (Nat.zero_add _), hs.best_le, restoreBest_of_none,
    restoreBest_restoreBest s, fun htorn => ?_⟩
  exact (performed_inStep edits (fun _ => .unsaved rfl hkept) htorn).agrees hlt

end Solution

/-- A variable is given a value, saved, given another one and restored. -/
theorem Solution.performed_agrees_restored :
    let start : Solution (Penalty ℚ) ℚ := Solution.ofModel (Penalty.ofTable [[3, 7]])
    let edits : List (Solution.Edit (Penalty ℚ) Nat ℚ) :=
      [.assign 0 1, .saveBest, .assign 0 0, .update 2, .restoreBest]
    start.model.best = none ∧ (∀ x : ℚ, ¬ x < x) ∧ ¬ start.Torn False edits ∧
      (Solution.performed edits start).Agrees := by
  have htorn : ¬ (Solution.ofModel (Penalty.ofTable [[3, 7]]) : Solution (Penalty ℚ) ℚ).Torn False
      [.assign 0 1, .saveBest, .assign 0 0, .update 2, .restoreBest] := fun h => h _ rfl
  exact ⟨rfl, lt_irrefl, htorn,
    (Solution.performed_agrees rfl lt_irrefl [] none _).2.2.2.2 htorn⟩

/-- A save of an option that its row does not have fails after the model has kept the assignment,
so that the model keeps a best assignment of which there is no snapshot. -/
theorem Penalty.torn_of_missing_option :
    let start : Solution (Penalty ℚ) ℚ :=
      Solution.ofModel { table := [[0, 1]], assigned := [some 5], best := none, assignments := 0 }
    let s := Solution.performed [.saveBest] start
    ¬ (s.best.isSome = true ↔ s.model.best.isSome = true) := by
  decide +kernel

/-! ## Saves that do not fail -/

section

variable {α : Type} [Scalar α]

/-- Every state of a timetable can be recorded. -/
theorem Timetable.not_unrecordable (s : Solution (Timetable α) α) : ¬ s.Unrecordable := by
  intro h
  obtain ⟨best, hbest⟩ := Solution.exists_snapshot
    (s := { s with model := Model.saveBest s.model }) rfl rfl
  exact h best hbest

/-- On a timetable the two records are never torn. -/
theorem Timetable.not_torn {s : Solution (Timetable α) α} {torn : Prop} (h : ¬ torn)
    (edits : List (Solution.Edit (Timetable α) (Placement α) α)) : ¬ s.Torn torn edits := by
  induction edits generalizing s torn with
  | nil => exact h
  | cons e edits ih =>
    refine ih ?_
    cases e with
    | saveBest => exact Timetable.not_unrecordable s
    | clearBest => exact id
    | _ => exact h

/-- On independent penalties a state can be recorded if every option is one of its own row. -/
theorem Penalty.not_unrecordable {table : List (List α)} {s : Solution (Penalty α) α}
    (h : s.model.Filled table) : ¬ s.Unrecordable := by
  intro hnone
  obtain ⟨total, htotal⟩ := h.exists_totalValue
  obtain ⟨best, hbest⟩ := Solution.exists_snapshot
    (s := { s with model := Model.saveBest s.model }) htotal (bind_eq_ok_iff.2 ⟨total, htotal, rfl⟩)
  exact hnone best hbest

end

end LocalSearch
