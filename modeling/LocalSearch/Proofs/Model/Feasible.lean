import LocalSearch.Proofs.Model.Total
/-!
# Feasible timetables

No operation on a timetable lets two placed events clash, neither in the current assignment nor in
the one that is kept as the best.

* `Timetable.Clear`, `Timetable.Feasible`: a timetable of some events without clashes, and one with
  an entry for every event. A failing assignment may leave no entries at all.
* `Timetable.hasHardConflicts_of_clashFree`: the program's own test agrees.
* `Timetable.Edit`: everything that may happen to a timetable. `Timetable.Edit.run_feasible` says
  what one edit keeps, and `Timetable.Edit.run_returns` that it does not fail on existing events.
* `Timetable.edits_feasible`: any number of edits, starting with nothing placed.
-/

namespace LocalSearch.Timetable

open Attempt

variable {α : Type} {events : List (Course α)} {t : Timetable α}

/-! ## Timetables without clashes -/

/-- A timetable of the events in which no two placements clash, now or in the best assignment. -/
structure Clear (events : List (Course α)) (t : Timetable α) : Prop where
  events_eq : t.events = events
  length_le : t.assigned.length ≤ events.length
  clashFree : Table.ClashFree t.Clashes t.assigned
  length_best : ∀ k, t.best = some k → k.length = events.length
  clashFree_best : ∀ k, t.best = some k → Table.ClashFree t.Clashes k

/-- One with an entry for every event. -/
structure Feasible (events : List (Course α)) (t : Timetable α) : Prop extends Clear events t where
  length_assigned : t.assigned.length = events.length

/-- The program's test for clashes finds none where there are none, if it finds the event of every
placement. -/
theorem hasHardConflicts_of_clashFree
    (hevents : ∀ (v : Nat) (p : Placement α), t.assigned[v]? = some (some p) → v < t.events.length)
    (h : Table.ClashFree t.Clashes t.assigned) : t.hasHardConflicts = .ok false := by
  refine anyM_eq_ok_false fun ⟨placed, v⟩ hmem => ?_
  have hv : t.assigned[v]? = some placed := List.mem_zipIdx_iff_getElem?.1 hmem
  cases placed with
  | none => rfl
  | some p =>
    obtain ⟨out, hout⟩ :=
      exists_conflictsIn p t.assigned (List.getElem?_eq_getElem (hevents v p hv))
    -- an event in conflict would be one whose placement clashes
    have hnone : out = [] := by
      refine List.eq_nil_iff_forall_not_mem.2 fun i hi => ?_
      obtain ⟨hne, q, hq, hclash⟩ := (mem_conflictsIn hout i).1 hi
      exact h v i p q hne.symm hv hq hclash
    subst hnone
    exact bind_eq_ok_iff.2 ⟨[], hout, rfl⟩

/-- Two placements that do not clash are in different slots, and in different periods if their
events are of one curriculum. -/
theorem not_clashes_iff {v i : Nat} {p q : Placement α} {e f : Course α}
    (he : t.events[v]? = some e) (hf : t.events[i]? = some f) :
    ¬ t.Clashes v p i q ↔
      p.sameSlot q = false ∧ (e.curriculum = f.curriculum → p.period ≠ q.period) := by
  have hclashes : t.Clashes v p i q ↔ Timetable.clash e p f q = true := by
    constructor
    · rintro ⟨e', f', he', hf', h⟩
      cases he.symm.trans he'
      cases hf.symm.trans hf'
      exact h
    · exact fun h => ⟨e, f, he, hf, h⟩
  rw [hclashes, clash_iff, ← Bool.not_eq_true, Placement.sameSlot_iff]
  constructor
  · intro h
    exact ⟨fun hslot => h ⟨hslot.1.symm, .inl hslot.2.symm⟩,
      fun hcurriculum hperiod => h ⟨hperiod.symm, .inr hcurriculum.symm⟩⟩
  · rintro ⟨hslot, hcurriculum⟩ ⟨hperiod, hroom | hsame⟩
    · exact hslot ⟨hperiod.symm, hroom.symm⟩
    · exact hcurriculum hsame.symm hperiod.symm

/-- With nothing placed there is no clash. -/
theorem feasible_ofEvents (events : List (Course α)) : Feasible events (ofEvents events) where
  events_eq := rfl
  length_le := Nat.le_of_eq (List.length_map _)
  length_assigned := List.length_map _
  clashFree i j p q _ hp := by
    rw [show (ofEvents events).assigned = events.map fun _ => none from rfl, List.getElem?_map,
      Option.map_eq_some_iff] at hp
    obtain ⟨_, -, h⟩ := hp
    cases h
  length_best _ h := by cases h
  clashFree_best _ h := by cases h

theorem Feasible.set_assigned {a : Table (Placement α)} (h : Feasible events t)
    (hlength : a.length = events.length) (ha : a.ClashFree t.Clashes) :
    Feasible events { t with assigned := a } :=
  ⟨⟨h.events_eq, Nat.le_of_eq hlength, ha, h.length_best, h.clashFree_best⟩, hlength⟩

/-! ## Placing events -/

/-- An event that is put where nothing clashes makes no clash. -/
theorem Feasible.fitOne {t' : Timetable α} {v : Nat} (h : Feasible events t)
    (hrun : t.fitOne v = .ok t') : Feasible events t' := by
  obtain ⟨e, -, hrun⟩ := bind_eq_ok_iff.1 hrun
  obtain ⟨p?, hfound, hrun⟩ := bind_eq_ok_iff.1 hrun
  cases p? with
  | none =>
    cases hrun
    exact h
  | some p =>
    obtain ⟨a, ha, hrun⟩ := bind_eq_ok_iff.1 hrun
    obtain ⟨hlt, rfl⟩ := store_eq_ok_iff.1 ha
    cases hrun
    have htest := of_findM?_eq_ok_some hfound
    obtain ⟨out, hout, hempty⟩ := bind_eq_ok_iff.1 htest
    -- nothing was in conflict, so placing the event without looking is placing it
    have hnone : out = [] := List.isEmpty_iff.1 (pure_eq_ok_iff.1 hempty)
    subst hnone
    refine h.set_assigned (List.length_set.trans h.length_assigned) ?_
    rw [← Table.evict_nil t.assigned]
    refine Table.clashFree_place (fun _ _ _ _ => clashes_comm) h.clashFree fun i q hi hq hclash => ?_
    exact (mem_conflictsIn hout i).2 ⟨hi, q, hq, hclash⟩

theorem Feasible.exists_fitOne {v : Nat} (h : Feasible events t) (hv : v < events.length) :
    ∃ t', t.fitOne v = .ok t' ∧ Feasible events t' := by
  obtain ⟨e, he⟩ : ∃ e, t.events[v]? = some e :=
    ⟨_, List.getElem?_eq_getElem (h.events_eq ▸ hv)⟩
  have htest (p : Placement α) :
      ∃ b, (do return (← t.conflictsIn t.assigned v p).isEmpty : Except Fault Bool) = .ok b := by
    obtain ⟨out, hout⟩ := exists_conflictsIn p t.assigned he
    exact ⟨_, bind_eq_ok_iff.2 ⟨out, hout, rfl⟩⟩
  obtain ⟨p?, hfound⟩ :
      ∃ p?, e.domain.findM? (fun p => do return (← t.conflictsIn t.assigned v p).isEmpty) =
        Except.ok p? := exists_findM?_eq_ok htest
  obtain ⟨t', hrun⟩ : ∃ t', t.fitOne v = .ok t' := by
    cases p? with
    | none => exact ⟨t, bind_eq_ok_iff.2 ⟨e, fetch_eq_ok_iff.2 he, bind_eq_ok_iff.2 ⟨_, hfound, rfl⟩⟩⟩
    | some p =>
      have hstore := store_eq_ok_iff.2 ⟨h.length_assigned ▸ hv, (rfl : t.assigned.set v (some p) = _)⟩
      exact ⟨_, bind_eq_ok_iff.2 ⟨e, fetch_eq_ok_iff.2 he, bind_eq_ok_iff.2
        ⟨_, hfound, bind_eq_ok_iff.2 ⟨_, hstore, rfl⟩⟩⟩⟩
  exact ⟨t', hrun, h.fitOne hrun⟩

/-- Putting all events at their first free placements succeeds and makes no clash. -/
theorem Feasible.exists_assignFirstFit (h : Feasible events t) :
    ∃ t', t.assignFirstFit = .ok t' ∧ Feasible events t' := by
  refine exists_foldlM_eq_ok (fun t v hv ht => ht.exists_fitOne ?_) h
  rw [← h.events_eq]
  exact List.mem_range.1 hv

variable [Scalar α]

/-- Neither placing an event nor taking one out makes a clash, and where nothing is placed there is
none. -/
theorem invariant_feasible (events : List (Course α)) :
    Model.KeptOr (V := Placement α) (Feasible events) (Clear events) where
  assign {t t' v p} h hrun := by
    have hbecomes := Model.becomes_assign hrun
    have hsound : Model.Sound t' := Model.invariant_sound.assign h.clashFree hrun
    obtain ⟨a, -, ha⟩ := bind_eq_ok_iff.1 hrun
    cases ha
    exact h.set_assigned ((Model.length_of_assign hrun).trans h.length_assigned) hsound
  unassign {t t' v} h hrun := by
    have hsound : Model.Sound t' := Model.invariant_sound.unassign h.clashFree hrun
    obtain ⟨a, -, ha⟩ := bind_eq_ok_iff.1 hrun
    cases ha
    exact h.set_assigned ((Model.length_of_unassign hrun).trans h.length_assigned) hsound
  failed h := h.toClear
  spoiled h :=
    { h.toClear with
      length_le := Nat.zero_le _
      clashFree := fun _ _ _ _ _ hp => by cases hp }

/-- There is an entry for every event. -/
def Sized (t : Timetable α) : Prop :=
  t.assigned.length = t.events.length

/-- With an entry for every event no operation fails, whatever the placements. -/
theorem serves_sized : Model.Serves (V := Placement α) (Sized (α := α)) fun _ _ => True where
  assign {t v p} h hv _ := by
    obtain ⟨e, he⟩ : ∃ e, t.events[v]? = some e := ⟨_, List.getElem?_eq_getElem (h ▸ hv)⟩
    obtain ⟨a, ha⟩ := exists_place p he hv
    have hassign : Model.assign t v p = .ok { t with assigned := a } :=
      bind_eq_ok_iff.2 ⟨a, ha, rfl⟩
    exact ⟨_, hassign, (Model.length_of_assign hassign).trans h⟩
  unassign {t v} h hv := by
    have hunassign : Model.unassign t v = .ok { t with assigned := t.assigned.set v none } :=
      bind_eq_ok_iff.2 ⟨_, store_eq_ok_iff.2 ⟨hv, rfl⟩, rfl⟩
    exact ⟨_, hunassign, (Model.length_of_unassign hunassign).trans h⟩
  total _ := ⟨_, rfl⟩
  admits _ _ := trivial

/-! ## Edits -/

/-- What may happen to a timetable. -/
inductive Edit (α : Type)
  | assign (v : Nat) (p : Placement α)
  | unassign (v : Nat)
  | firstFit
  | saveBest
  | restoreBest
  | clearBest
  /-- The commit of a move, which may have been proposed for another timetable. -/
  | move (m : Move (Placement α) α)
  /-- The commit of a lazy change, with the predicate that decides on it. -/
  | lazy (c : LazyChange (Placement α)) (accept : Timetable α → α → α → Bool)

namespace Edit

/-- Makes an edit. -/
def run : Edit α → Attempt (Timetable α) Unit
  | assign v p => Model.put v p
  | unassign v => Attempt.update (Model.unassign · v)
  | firstFit => Attempt.update assignFirstFit
  | saveBest => modify Model.saveBest
  | restoreBest => modify Model.restoreBest
  | clearBest => modify Model.clearBest
  | move m => m.commit
  | lazy c accept => do
    let _ ← c.commit accept

/-- All events that an edit names exist. -/
def InRange (n : Nat) : Edit α → Prop
  | assign v _ | unassign v => v < n
  | move (.change m) => m.var < n
  | move (.swap m) => m.first < n ∧ m.second < n
  | lazy c _ => c.var < n
  | firstFit | saveBest | restoreBest | clearBest => True

theorem feasible_saveBest (h : Feasible events t) : Feasible events (Model.saveBest t) where
  events_eq := h.events_eq
  length_le := h.length_le
  length_assigned := h.length_assigned
  clashFree := h.clashFree
  length_best k hk := by
    cases hk
    exact h.length_assigned
  clashFree_best k hk := by
    cases hk
    exact h.clashFree

theorem feasible_clearBest (h : Feasible events t) : Feasible events (Model.clearBest t) where
  events_eq := h.events_eq
  length_le := h.length_le
  length_assigned := h.length_assigned
  clashFree := h.clashFree
  length_best k hk := by cases hk
  clashFree_best k hk := by cases hk

/-- Going back takes either the best assignment, which has no clash, or places nothing. -/
theorem feasible_restoreBest (h : Feasible events t) : Feasible events (Model.restoreBest t) := by
  cases hk : t.best with
  | some k =>
    have hrestore : Model.restoreBest t = { t with assigned := k } := by
      show { t with assigned := t.best.getD _ } = _
      rw [hk]
      rfl
    rw [hrestore]
    exact h.set_assigned (h.length_best k hk) (h.clashFree_best k hk)
  | none =>
    have hrestore : Model.restoreBest t = { t with assigned := (ofEvents t.events).assigned } := by
      show { t with assigned := t.best.getD _ } = _
      rw [hk]
      rfl
    rw [hrestore]
    have hnothing := feasible_ofEvents t.events
    exact h.set_assigned (h.events_eq ▸ hnothing.length_assigned) hnothing.clashFree

/-- An edit makes no clash, also if it fails. -/
theorem run_feasible (e : Edit α) :
    Ensures (Feasible events) e.run (fun _ => Feasible events) (Clear events) := by
  have hinvariant := invariant_feasible events
  cases e with
  | assign v p => exact hinvariant.ensures_put v p
  | unassign v => exact hinvariant.ensures_unassign v
  | firstFit => exact ensures_update_of_ok fun _ h => h.exists_assignFirstFit
  | saveBest => exact ensures_modify fun _ h => feasible_saveBest h
  | restoreBest => exact ensures_modify fun _ h => feasible_restoreBest h
  | clearBest => exact ensures_modify fun _ h => feasible_clearBest h
  | move m => exact m.commit_ensures hinvariant
  | lazy c accept =>
    exact Ensures.bind (c.commit_ensures hinvariant accept) fun _ => ensures_pure fun _ h => h

/-- An edit of existing events does not fail. -/
theorem run_returns {e : Edit α} (he : e.InRange events.length) :
    Ensures (Feasible events) e.run (fun _ => Feasible events) (fun _ => False) := by
  have hready : ∀ t, Feasible events t → Model.Ready Sized events.length t :=
    fun t h => ⟨h.length_assigned.trans (congrArg List.length h.events_eq.symm), h.length_assigned⟩
  -- what does not fail keeps what the edit keeps in any case
  have hreturns (h : Ensures (Model.Ready Sized events.length) e.run
      (fun _ => Model.Ready Sized events.length) (fun _ => False)) :
      Ensures (Feasible events) e.run (fun _ => Feasible events) (fun _ => False) :=
    (e.run_feasible.and (h.mono_pre hready)).mono (fun _ h => h) (fun _ _ h => h.1) fun _ h => h.2
  cases e with
  | assign v p => exact hreturns (serves_sized.ensures_put he trivial)
  | unassign v => exact hreturns (serves_sized.ensures_unassign he)
  | firstFit => exact ensures_update_of_ok fun _ h => h.exists_assignFirstFit
  | saveBest => exact ensures_modify fun _ h => feasible_saveBest h
  | restoreBest => exact ensures_modify fun _ h => feasible_restoreBest h
  | clearBest => exact ensures_modify fun _ h => feasible_clearBest h
  | move m =>
    refine hreturns (m.commit_returns serves_sized ?_)
    cases m with
    | change m => exact ⟨he, fun _ _ => trivial⟩
    | swap m => exact ⟨he.1, he.2, fun _ => Iff.rfl⟩
  | lazy c accept =>
    exact hreturns <| Ensures.bind (c.commit_returns serves_sized he trivial accept) fun _ =>
      ensures_pure fun _ h => h

end Edit

/-- Whatever is done to a timetable in which nothing was placed at first, no two placed events ever
share a slot, and no two of one curriculum a period, neither now nor in the assignment that is kept
as the best. Nothing that is done to existing events fails. -/
theorem edits_feasible (events : List (Course α)) (edits : List (Edit α)) :
    let run := edits.forM Edit.run
    let t := run.after (ofEvents events)
    t.events = events ∧ t.hasHardConflicts = .ok false ∧
    (∀ best, t.best = some best → best.length = events.length ∧
      ∀ (i j : Nat) (p q : Placement α) (e f : Course α), i ≠ j →
        best[i]? = some (some p) → best[j]? = some (some q) →
        events[i]? = some e → events[j]? = some f →
          p.sameSlot q = false ∧ (e.curriculum = f.curriculum → p.period ≠ q.period)) ∧
    ((∀ e ∈ edits, e.InRange events.length) → run (ofEvents events) = .ok () t) := by
  intro run t
  have hinit := feasible_ofEvents events
  have ht : Clear events t := by
    have hrun : Ensures (Feasible events) run (fun _ => Feasible events) (Clear events) :=
      ensures_forM edits fun e _ => e.run_feasible
    exact (hrun.mono_post fun _ _ h => h.toClear).after hinit
  refine ⟨ht.events_eq, ?_, fun best hbest => ⟨ht.length_best best hbest, ?_⟩, fun hrange => ?_⟩
  · refine hasHardConflicts_of_clashFree (fun v p hv => ?_) ht.clashFree
    rw [ht.events_eq]
    exact Nat.lt_of_lt_of_le (List.getElem?_eq_some_iff.1 hv).1 ht.length_le
  · intro i j p q e f hij hp hq he hf
    rw [← ht.events_eq] at he hf
    exact (not_clashes_iff he hf).1 (ht.clashFree_best best hbest i j p q hij hp hq)
  · -- by induction on the edits, none of which fails
    have hreturns : Ensures (Feasible events) run (fun _ => Feasible events) (fun _ => False) :=
      ensures_forM edits fun e he => Edit.run_returns (hrange e he)
    obtain ⟨_, t', hrun, -⟩ := hreturns.exists_ok hinit
    rw [show t = t' from after_of_ok hrun]
    exact hrun

end LocalSearch.Timetable
