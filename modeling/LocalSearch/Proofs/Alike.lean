import LocalSearch.Comparator
import LocalSearch.Proofs.Act
import LocalSearch.Proofs.Dictionary
import LocalSearch.Proofs.Twins
/-!
# Worlds that differ in their times

A solution notes the time of every update, a snapshot the time of the best state, and the
diagnostics and a few events quote them. Two worlds are alike if they differ in nothing else.

* `Dictionary.Alike`, `Snapshot.Alike`, `Solution.Alike`, `Journal.Alike`, `World.Alike`.
* `World.Alike.update`, `World.twin_saveBest`, `World.Alike.restoreBest`: the operations of a world
  keep worlds alike, whatever times they are given.
* `Act.Timeless`: an operation that does the same on worlds that are alike, and keeps a property of
  its part. Its rules are those of `Attempt.Twin`.
-/

namespace LocalSearch

variable {S T M V α β : Type}

/-! ## Diagnostics -/

namespace Dictionary

/-- The dictionaries differ only in what they say about the time. -/
def Alike (d e : Dictionary) : Prop :=
  ∀ key, key ≠ "Time" → key ≠ "Speed" → e.get? key = d.get? key

theorem Alike.refl (d : Dictionary) : d.Alike d :=
  fun _ _ _ => rfl

theorem Alike.insert {d e : Dictionary} (h : d.Alike e) (key value : String) :
    (d.insert key value).Alike (e.insert key value) := by
  intro wanted htime hspeed
  rw [get?_insert, get?_insert, h wanted htime hspeed]

/-- The entries about the time may be any. -/
theorem Alike.insert_left {d e : Dictionary} (h : d.Alike e) {key value : String}
    (hkey : key = "Time" ∨ key = "Speed") : (d.insert key value).Alike e := by
  intro wanted htime hspeed
  rw [get?_insert, if_neg, h wanted htime hspeed]
  rintro rfl
  exact hkey.elim htime hspeed

theorem Alike.insert_right {d e : Dictionary} (h : d.Alike e) {key value : String}
    (hkey : key = "Time" ∨ key = "Speed") : d.Alike (e.insert key value) := by
  intro wanted htime hspeed
  rw [get?_insert, if_neg, h wanted htime hspeed]
  rintro rfl
  exact hkey.elim htime hspeed

end Dictionary

/-- What the listener adds does not depend on the entries about the time. -/
def SolutionListener.Timeless (l : SolutionListener) : Prop :=
  ∀ iteration d e, Dictionary.Alike d e →
    (l.contribute iteration d).Alike (l.contribute iteration e)

/-! ## Snapshots and solutions -/

/-- The snapshots differ only in their times and in what they say about them. -/
structure Snapshot.Alike (b c : Snapshot α) : Prop where
  iteration : c.iteration = b.iteration
  value : c.value = b.value
  complete : c.complete = b.complete
  info : b.info.Alike c.info
  perturbation : c.perturbation = b.perturbation

/-- The solutions differ only in their times and in those of their best states. -/
structure Solution.Alike (s t : Solution M α) : Prop where
  model : t.model = s.model
  iteration : t.iteration = s.iteration
  totalIterations : t.totalIterations = s.totalIterations
  best : Option.Rel Snapshot.Alike s.best t.best
  cleared : t.cleared = s.cleared
  listeners : t.listeners = s.listeners
  perturbation : t.perturbation = s.perturbation
  timeless : ∀ l ∈ s.listeners, l.Timeless

namespace Solution

variable {s t : Solution M α}

/-- Both solutions have a best state or neither has. -/
theorem Alike.best_cases (h : s.Alike t) : (s.best = none ∧ t.best = none) ∨
    ∃ b c, s.best = some b ∧ t.best = some c ∧ b.Alike c := by
  have hbest := h.best
  generalize s.best = x, t.best = y at hbest
  cases hbest with
  | none => exact .inl ⟨rfl, rfl⟩
  | some h => exact .inr ⟨_, _, rfl, rfl, h⟩

theorem Alike.withModel (h : s.Alike t) (model : M) :
    Alike { s with model } { t with model } :=
  { h with model := rfl }

theorem Alike.update (h : s.Alike t) (time time' : α) :
    (s.update time).Alike (t.update time') :=
  { h with
    iteration := congrArg (· + 1) h.iteration
    totalIterations := congrArg (· + 1) h.totalIterations }

theorem Alike.notices (h : s.Alike t) (notice : String → Nat → Notice α) :
    t.notices notice = s.notices notice := by
  unfold Solution.notices
  rw [h.listeners, h.iteration]

variable [Scalar α]

/-- What is read of the best state is the same, but for its time. -/
theorem Alike.bestValue (h : s.Alike t) : t.bestValue = s.bestValue := by
  obtain ⟨hs, ht⟩ | ⟨b, c, hs, ht, hb⟩ := h.best_cases
  · simp only [Solution.bestValue, hs, ht]
  · simp only [Solution.bestValue, hs, ht, hb.value]

omit [Scalar α] in
theorem Alike.isBestComplete (h : s.Alike t) : t.isBestComplete = s.isBestComplete := by
  obtain ⟨hs, ht⟩ | ⟨b, c, hs, ht, hb⟩ := h.best_cases
  · simp only [Solution.isBestComplete, hs, ht]
  · simp only [Solution.isBestComplete, hs, ht, hb.complete]

omit [Scalar α] in
theorem Alike.bestIteration (h : s.Alike t) : t.bestIteration = s.bestIteration := by
  obtain ⟨hs, ht⟩ | ⟨b, c, hs, ht, hb⟩ := h.best_cases
  · simp only [Solution.bestIteration, hs, ht, h.cleared, h.iteration]
  · simp only [Solution.bestIteration, hs, ht, hb.iteration]

theorem Alike.perturbationPenalty (h : s.Alike t) :
    t.perturbationPenalty = s.perturbationPenalty := by
  unfold Solution.perturbationPenalty
  rw [h.perturbation, h.model]

/-- The diagnostics quote the time in two entries; the listeners see them but do not use them. -/
theorem Alike.decorate (h : s.Alike t) {d e : Dictionary} (hd : d.Alike e) :
    (s.decorate d).Alike (t.decorate e) := by
  have hfold : ∀ (listeners : List SolutionListener), (∀ l ∈ listeners, l.Timeless) →
      ∀ d e : Dictionary, d.Alike e →
        (listeners.foldl (fun info l => l.contribute s.iteration info) d).Alike
          (listeners.foldl (fun info l => l.contribute s.iteration info) e) := by
    intro listeners
    induction listeners with
    | nil => exact fun _ _ _ hd => hd
    | cons l listeners ih =>
      exact fun hl d e hd => ih (fun l' hl' => hl l' (List.mem_cons_of_mem _ hl')) _ _
        (hl l List.mem_cons_self _ _ _ hd)
  unfold Solution.decorate
  dsimp only
  rw [h.listeners, h.iteration, h.perturbation, h.model]
  refine hfold _ h.timeless _ _ ?_
  have htime (x y : String) : (d.insert "Time" x).Alike (e.insert "Time" y) :=
    (hd.insert_left (.inl rfl)).insert_right (.inl rfl)
  have hiteration := (htime (Scalar.fixed 2 s.time ++ " sec")
    (Scalar.fixed 2 t.time ++ " sec")).insert "Iteration" (toString s.iteration)
  have hspeed (x y : String) (p q : Prop) [Decidable p] [Decidable q] {d e : Dictionary}
      (hd : d.Alike e) : (if p then d.insert "Speed" x else d).Alike
        (if q then e.insert "Speed" y else e) := by
    split
    · split
      · exact (hd.insert_left (.inr rfl)).insert_right (.inr rfl)
      · exact hd.insert_left (.inr rfl)
    · split
      · exact hd.insert_right (.inr rfl)
      · exact hd
  cases s.perturbation with
  | none => exact hspeed _ _ _ _ hiteration
  | some penalty => exact (hspeed _ _ _ _ hiteration).insert _ _

variable [Model M V α]

omit [Scalar α] in
theorem Alike.referenceValue (h : s.Alike t) : t.referenceValue = s.referenceValue := by
  obtain ⟨hs, ht⟩ | ⟨b, c, hs, ht, hb⟩ := h.best_cases
  · simp only [Solution.referenceValue, hs, ht, h.model]
  · simp only [Solution.referenceValue, hs, ht, hb.value]

/-- Two states are recorded alike, or neither can be. -/
theorem Alike.snapshot (h : s.Alike t) :
    (∃ b c, s.snapshot = .ok b ∧ t.snapshot = .ok c ∧ b.Alike c) ∨
      ∃ e, s.snapshot = .error e ∧ t.snapshot = .error e := by
  unfold Solution.snapshot Solution.info
  rw [h.model, h.iteration, h.perturbationPenalty]
  cases Model.totalValue s.model with
  | error e => exact .inr ⟨e, rfl, rfl⟩
  | ok value =>
    cases Model.info s.model with
    | error e => exact .inr ⟨e, rfl, rfl⟩
    | ok info =>
      exact .inl ⟨_, _, rfl, rfl, rfl, rfl, rfl, h.decorate (.refl info), rfl⟩

theorem twin_saveBest :
    Attempt.Twin Alike (saveBest : Attempt (Solution M α) Unit) saveBest := by
  unfold saveBest
  refine (Attempt.twin_modify fun s t h => ?_).bind fun _ => ?_
  · rw [h.model]
    exact h.withModel _
  refine Attempt.twin_get_bind fun s t h => ?_
  obtain ⟨b, c, hs, ht, hb⟩ | ⟨e, hs, ht⟩ := h.snapshot
  · rw [hs, ht]
    intro s' t' h'
    exact .ok _ { h' with best := .some hb, cleared := rfl }
  · rw [hs, ht]
    exact fun _ _ h' => .error _ h'

omit [Scalar α] in
theorem Alike.restoreBest (h : s.Alike t) : s.restoreBest.Alike t.restoreBest := by
  unfold Solution.restoreBest
  obtain ⟨hs, ht⟩ | ⟨b, c, hs, ht, hb⟩ := h.best_cases
  · rw [hs, ht]
    exact h
  · rw [hs, ht]
    dsimp only
    exact { h with
      model := congrArg Model.restoreBest h.model, iteration := hb.iteration
      best := .some hb }

end Solution

/-! ## Journals and worlds -/

/-- The event without the time. -/
def Event.timeless (e : Event α) : Event α :=
  { e with fields := e.fields.filter (·.1 ≠ "time") }

/-- The journals differ only in the times that their events quote. -/
structure Journal.Alike (j k : Journal α) : Prop where
  threshold : k.threshold = j.threshold
  events : k.events.map Event.timeless = j.events.map Event.timeless

theorem Journal.Alike.keeps {j k : Journal α} (h : j.Alike k) (level : Level) :
    k.keeps level = j.keeps level := by
  unfold Journal.keeps
  rw [h.threshold]

/-- An event is kept in both journals or in neither. -/
theorem Journal.Alike.record {j k : Journal α} (h : j.Alike k) (level : Level) (name : String)
    {fields fields' : Unit → List (String × FieldValue α)}
    (hfields : (fields' ()).filter (·.1 ≠ "time") = (fields ()).filter (·.1 ≠ "time")) :
    (j.record level name fields).Alike (k.record level name fields') := by
  unfold Journal.record
  rw [h.keeps]
  split
  · refine ⟨h.threshold, ?_⟩
    simp only [Array.map_push, h.events, Event.timeless, List.filter_cons, hfields]
  · exact h

/-- The worlds differ only in times. -/
structure World.Alike (w v : World M α) : Prop where
  solution : w.solution.Alike v.solution
  random : v.random = w.random
  journal : w.journal.Alike v.journal
  notices : v.notices = w.notices

namespace World

variable {w v : World M α}

theorem Alike.tell (h : w.Alike v) {notices notices' : List (Notice α)} (hn : notices' = notices) :
    (w.tell notices).Alike (v.tell notices') :=
  { h with notices := by rw [hn]; exact congrArg (notices.reverse ++ ·) h.notices }

theorem Alike.withRandom (h : w.Alike v) (random : Random.Stream) :
    Alike { w with random } { v with random } :=
  { h with random := rfl }

theorem Alike.withSolution (h : w.Alike v) {s t : Solution M α} (hst : s.Alike t) :
    Alike { w with solution := s } { v with solution := t } :=
  { h with solution := hst }

theorem Alike.update (h : w.Alike v) (time time' : α) : (w.update time).Alike (v.update time') := by
  have hs := h.solution.update time time'
  exact (h.withSolution hs).tell (hs.notices _)

/-- What is done to equal models is the same. -/
theorem twin_onModel (x : Attempt M β) :
    Attempt.Twin Alike (onModel x : Attempt (World M α) β) (onModel x) := by
  refine Attempt.twin_focus (Q := (· = ·)) (fun w v h => h.solution.model.symm) ?_ ?_
  · rintro w v m _ h rfl
    exact h.withSolution (h.solution.withModel m)
  · rintro m _ rfl
    cases x m with
    | ok a m => exact .ok a rfl
    | error e m => exact .error e rfl

variable [Scalar α] [Model M V α]

theorem twin_saveBest : Attempt.Twin Alike (saveBest : Attempt (World M α) Unit) saveBest := by
  unfold saveBest
  refine Attempt.Twin.bind ?_ fun _ => Attempt.twin_modify fun w v h =>
    h.tell (h.solution.notices _)
  exact Attempt.twin_focus (fun _ _ h => h.solution) (fun _ _ _ _ h hs => h.withSolution hs)
    Solution.twin_saveBest

omit [Scalar α] in
theorem Alike.restoreBest (h : w.Alike v) : w.restoreBest.Alike v.restoreBest := by
  have hs := h.solution.restoreBest
  unfold World.restoreBest
  obtain ⟨hw, hv⟩ | ⟨b, c, hw, hv, -⟩ := h.solution.best_cases
  · rw [hw, hv]
    exact h
  · rw [hw, hv]
    exact (h.withSolution hs).tell (hs.notices _)

end World

/-! ## Operations -/

namespace Act

/-- The parts are the same and have a property, and the worlds are alike. -/
def Beside (F : S → Prop) (s t : S × World M α) : Prop :=
  F s.1 ∧ t.1 = s.1 ∧ s.2.Alike t.2

/-- The operations do the same to parts with a property, which they keep, on worlds that are
alike. -/
abbrev Twin (F : S → Prop) (x y : Act S M α β) : Prop :=
  Attempt.Twin (Beside F) x y

/-- The operation does the same whatever the times are. -/
abbrev Timeless (F : S → Prop) (x : Act S M α β) : Prop :=
  Twin F x x

variable {F : S → Prop} {G : T → Prop}

theorem twin_part_bind {f g : S → Act S M α β} (h : ∀ s, F s → Twin F (f s) (g s)) :
    Twin F (part >>= f) (part >>= g) := by
  rintro ⟨_, w⟩ ⟨s, v⟩ ⟨hF, rfl, hw⟩
  exact h s hF (s, w) (s, v) ⟨hF, rfl, hw⟩

theorem twin_solution_bind {f g : Solution M α → Act S M α β}
    (h : ∀ s t, s.Alike t → Twin F (f s) (g t)) :
    Twin F (solution >>= f) (solution >>= g) := by
  rintro ⟨_, w⟩ ⟨s, v⟩ ⟨hF, rfl, hw⟩
  exact h w.solution v.solution hw.solution (s, w) (s, v) ⟨hF, rfl, hw⟩

theorem timeless_change {f : S → S} (h : ∀ s, F s → F (f s)) :
    Timeless F (change f : Act S M α Unit) := by
  refine Attempt.twin_modify ?_
  rintro ⟨_, w⟩ ⟨s, v⟩ ⟨hF, rfl, hw⟩
  exact ⟨h s hF, rfl, hw⟩

theorem timeless_change_bind {f : S → S} {g h : Unit → Act S M α β} (hf : ∀ s, F s → F (f s))
    (hg : ∀ u, Twin F (g u) (h u)) : Twin F (change f >>= g) (change f >>= h) :=
  Attempt.Twin.bind (timeless_change hf) hg

/-- Events may quote different times. -/
theorem twin_report {level : Level} {name : String}
    {fields fields' : Unit → List (String × FieldValue α)}
    (h : (fields' ()).filter (·.1 ≠ "time") = (fields ()).filter (·.1 ≠ "time")) :
    Twin F (report level name fields : Act S M α Unit) (report level name fields') := by
  refine Attempt.twin_modify ?_
  rintro ⟨_, w⟩ ⟨s, v⟩ ⟨hF, rfl, hw⟩
  exact ⟨hF, rfl, { hw with journal := hw.journal.record level name h }⟩

@[simp]
theorem timeless_report (level : Level) (name : String)
    (fields : Unit → List (String × FieldValue α)) :
    Timeless F (report level name fields : Act S M α Unit) :=
  twin_report rfl

/-- What is done to equal parts is the same. -/
theorem timeless_onPart {x : Attempt S β} (h : Attempt.Ensures F x (fun _ => F) F) :
    Timeless F (onPart x : Act S M α β) := by
  refine Attempt.twin_focus (Q := fun s t => F s ∧ t = s) (fun _ _ h => ⟨h.1, h.2.1⟩)
    (fun _ _ _ _ h h' => ⟨h'.1, h'.2, h.2.2⟩) ?_
  rintro s _ ⟨hF, rfl⟩
  cases hrun : x _ with
  | ok a s' => exact .ok a ⟨h.of_ok hF hrun, rfl⟩
  | error e s' => exact .error e ⟨h.of_error hF hrun, rfl⟩

/-- What is drawn from equal streams is the same. -/
theorem timeless_withRandom {x : Attempt (S × Random.Stream) β}
    (h : Attempt.Ensures (fun s => F s.1) x (fun _ s => F s.1) fun s => F s.1) :
    Timeless F (withRandom x : Act S M α β) := by
  refine Attempt.twin_focus (Q := fun s t => F s.1 ∧ t = s)
    (fun _ _ h => ⟨h.1, Prod.ext h.2.1 h.2.2.random⟩) ?_ ?_
  · rintro _ _ ⟨s, random⟩ _ hst ⟨hF, rfl⟩
    exact ⟨hF, rfl, hst.2.2.withRandom random⟩
  rintro s _ ⟨hF, rfl⟩
  cases hrun : x _ with
  | ok a s' => exact .ok a ⟨h.of_ok hF hrun, rfl⟩
  | error e s' => exact .error e ⟨h.of_error hF hrun, rfl⟩

theorem twin_onWorld {x y : Attempt (World M α) β} (h : Attempt.Twin World.Alike x y) :
    Twin F (onWorld x : Act S M α β) (onWorld y) :=
  Attempt.twin_focus (fun _ _ h => h.2.2) (fun _ _ _ _ h hw => ⟨h.1, h.2.1, hw⟩) h

theorem twin_within {view : S → T} {put : S → T → S} {x y : Act T M α β} (h : Twin G x y)
    (hview : ∀ s, F s → G (view s)) (hput : ∀ s t, F s → G t → F (put s t)) :
    Twin F (within view put x : Act S M α β) (within view put y) := by
  refine Attempt.twin_focus (Q := Beside G) ?_ ?_ h
  · rintro ⟨_, w⟩ ⟨s, v⟩ ⟨hF, rfl, hw⟩
    exact ⟨hview s hF, rfl, hw⟩
  · rintro ⟨_, _⟩ ⟨s, _⟩ ⟨_, w⟩ ⟨t, v⟩ ⟨hF, rfl, -⟩ ⟨hG, rfl, hw⟩
    exact ⟨hput s t hF hG, rfl, hw⟩

end Act

end LocalSearch
