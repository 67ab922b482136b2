import LocalSearch.Proofs.Model.Feasible
/-!
# First fit

Putting the events of an empty timetable one after the other at their first free placements.

* `Timetable.Blocked`: a placement of an event clashes with another event that is placed. Placing
  further events blocks more (`Timetable.Blocked.of_within`).
* `Timetable.FirstFree`: what the scan of a domain finds, `Timetable.fitOne_eq`.
* `Timetable.Fitted`: the timetable after some events had their turn. `Timetable.Fitted.fitOne` is
  one turn.
* `Timetable.assignFirstFit_maximal`: the timetable after all events had their turn.
-/

namespace LocalSearch

namespace Timetable

variable {α : Type} {events : List (Course α)} {t : Timetable α} {v : Nat} {e : Course α}
  {domain : List (Placement α)} {p : Placement α} {p? : Option (Placement α)}

/-! ## The scan of a domain -/

/-- Placing event `v` there clashes with another event that is placed. -/
def Blocked (t : Timetable α) (v : Nat) (p : Placement α) : Prop :=
  ∃ i q, i ≠ v ∧ t.assigned[i]? = some (some q) ∧ t.Clashes v p i q

/-- What blocks a placement blocks it as long as it stays. -/
theorem Blocked.of_within {a : Table (Placement α)} (h : t.Blocked v p)
    (ha : Table.Within t.assigned a) : Blocked { t with assigned := a } v p := by
  obtain ⟨i, q, hi, hq, hclash⟩ := h
  exact ⟨i, q, hi, ha i q hq, hclash⟩

/-- An event that is placed is not blocked where it is. -/
theorem Feasible.not_blocked (h : Feasible events t) (hv : t.assigned[v]? = some (some p)) :
    ¬ t.Blocked v p := by
  rintro ⟨i, q, hi, hq, hclash⟩
  exact h.clashFree v i p q hi.symm hv hq hclash

/-- The test whether a placement is free. -/
theorem isFree_eq (he : t.events[v]? = some e) {free : Bool} (h : free = true ↔ ¬ t.Blocked v p) :
    (do return (← t.conflictsIn t.assigned v p).isEmpty : Except Fault Bool) = .ok free := by
  obtain ⟨out, hout⟩ := exists_conflictsIn p t.assigned he
  refine bind_eq_ok_iff.2 ⟨out, hout, pure_eq_ok_iff.2 ?_⟩
  have hblocked : t.Blocked v p ↔ ∃ i, i ∈ out := by
    constructor
    · rintro ⟨i, q, hi, hq, hclash⟩
      exact ⟨i, (mem_conflictsIn hout i).2 ⟨hi, q, hq, hclash⟩⟩
    · rintro ⟨i, hmem⟩
      obtain ⟨hi, q, hq, hclash⟩ := (mem_conflictsIn hout i).1 hmem
      exact ⟨i, q, hi, hq, hclash⟩
  rw [Bool.eq_iff_iff, h, hblocked, List.isEmpty_iff, List.eq_nil_iff_forall_not_mem, not_exists]

/-- The first placement of a domain that is not blocked, or none if all are. -/
def FirstFree (t : Timetable α) (v : Nat) (domain : List (Placement α))
    (p? : Option (Placement α)) : Prop :=
  ∃ skipped rest, domain = skipped ++ rest ∧ (∀ p ∈ skipped, t.Blocked v p) ∧ rest.head? = p? ∧
    ∀ p ∈ p?, ¬ t.Blocked v p

theorem exists_firstFree (t : Timetable α) (v : Nat) (domain : List (Placement α)) :
    ∃ p?, t.FirstFree v domain p? := by
  induction domain with
  | nil => exact ⟨none, [], [], rfl, by simp, rfl, by simp⟩
  | cons p domain ih =>
    by_cases hp : t.Blocked v p
    · obtain ⟨p?, skipped, rest, rfl, hskipped, hhead, hfree⟩ := ih
      exact ⟨p?, p :: skipped, rest, rfl, List.forall_mem_cons.2 ⟨hp, hskipped⟩, hhead, hfree⟩
    · exact ⟨some p, [], p :: domain, rfl, by simp, rfl, by simpa using hp⟩

theorem FirstFree.mem (h : t.FirstFree v domain (some p)) : p ∈ domain := by
  obtain ⟨skipped, rest, rfl, -, hhead, -⟩ := h
  exact List.mem_append_right skipped (List.mem_of_mem_head? hhead)

theorem FirstFree.blocked (h : t.FirstFree v domain none) (hp : p ∈ domain) : t.Blocked v p := by
  obtain ⟨skipped, rest, rfl, hskipped, hhead, -⟩ := h
  rw [List.head?_eq_none_iff.1 hhead, List.append_nil] at hp
  exact hskipped p hp

/-- More placed events leave the first free placement the first free one, unless they block it. -/
theorem FirstFree.of_within {a : Table (Placement α)} (h : t.FirstFree v domain p?)
    (ha : Table.Within t.assigned a) (hfree : ∀ p ∈ p?, ¬ Blocked { t with assigned := a } v p) :
    FirstFree { t with assigned := a } v domain p? := by
  obtain ⟨skipped, rest, hdomain, hskipped, hhead, -⟩ := h
  exact ⟨skipped, rest, hdomain, fun p hp => (hskipped p hp).of_within ha, hhead, hfree⟩

/-- The scan of a domain finds its first free placement. -/
theorem FirstFree.findM?_eq (h : t.FirstFree v domain p?) (he : t.events[v]? = some e) :
    domain.findM? (fun p => do return (← t.conflictsIn t.assigned v p).isEmpty) =
      Except.ok p? := by
  obtain ⟨skipped, rest, rfl, hskipped, rfl, hfree⟩ := h
  rw [findM?_append fun p hp => isFree_eq he (by simp [hskipped p hp])]
  cases rest with
  | nil => rfl
  | cons p rest =>
    exact bind_eq_ok_iff.2 ⟨true, isFree_eq he (by simp [hfree p rfl]), rfl⟩

/-- Holds event `v` there, or leaves everything as it is. -/
def hold (t : Timetable α) (v : Nat) : Option (Placement α) → Timetable α
  | none => t
  | some p => { t with assigned := t.assigned.set v (some p) }

/-- The turn of an event holds it at the first free placement of its domain. -/
theorem fitOne_eq (h : Feasible events t) (he : events[v]? = some e)
    (hfirst : t.FirstFree v e.domain p?) : t.fitOne v = .ok (t.hold v p?) := by
  rw [← h.events_eq] at he
  refine bind_eq_ok_iff.2 ⟨e, fetch_eq_ok_iff.2 he, bind_eq_ok_iff.2
    ⟨p?, hfirst.findM?_eq he, ?_⟩⟩
  cases p? with
  | none => rfl
  | some p =>
    have hv : v < t.assigned.length := by
      rw [h.length_assigned, ← h.events_eq]
      exact (List.getElem?_eq_some_iff.1 he).1
    exact bind_eq_ok_iff.2 ⟨_, store_eq_ok_iff.2 ⟨hv, rfl⟩, rfl⟩

/-! ## The events in their turn -/

/-- The event is where its turn would put it. -/
def Settled (t : Timetable α) (v : Nat) (e : Course α) : Prop :=
  ∃ p?, t.assigned[v]? = some p? ∧ t.FirstFree v e.domain p?

/-- The turn of an event that is settled changes nothing. -/
theorem Settled.fitOne_eq (hsettled : t.Settled v e) (h : Feasible events t)
    (he : events[v]? = some e) : t.fitOne v = .ok t := by
  obtain ⟨p?, hv, hfirst⟩ := hsettled
  rw [Timetable.fitOne_eq h he hfirst]
  cases p? with
  | none => rfl
  | some p =>
    obtain ⟨hlt, hget⟩ := List.getElem?_eq_some_iff.1 hv
    show Except.ok { t with assigned := t.assigned.set v (some p) } = Except.ok t
    rw [← hget, List.set_getElem_self]

/-- Some events have had their turn and are settled, the other ones are not placed. -/
structure Fitted (events : List (Course α)) (done : List Nat) (t : Timetable α) : Prop
    extends Feasible events t where
  settled : ∀ v ∈ done, ∀ e, events[v]? = some e → t.Settled v e
  waiting : ∀ v ∉ done, v < events.length → t.assigned[v]? = some none

theorem fitted_ofEvents (events : List (Course α)) : Fitted events [] (ofEvents events) where
  toFeasible := feasible_ofEvents events
  settled v hv := by cases hv
  waiting v _ hv := by
    show (events.map fun _ => none)[v]? = some none
    rw [List.getElem?_map, List.getElem?_eq_getElem hv, Option.map_some]

/-- Holding an event that waits at its first free placement settles it, and leaves the events that
are settled as they are. -/
theorem Fitted.hold {done : List Nat} (h : Fitted events done t) (hdone : v ∉ done)
    (he : events[v]? = some e) (hfirst : t.FirstFree v e.domain p?) :
    Fitted events (done ++ [v]) (t.hold v p?) := by
  have hv : v < events.length := (List.getElem?_eq_some_iff.1 he).1
  have hwaits := h.waiting v hdone hv
  have hfeasible : Feasible events (t.hold v p?) := h.toFeasible.fitOne (fitOne_eq h.1 he hfirst)
  cases p? with
  | none =>
    refine ⟨hfeasible, fun i hi f hf => ?_, fun i hi => h.waiting i fun hmem =>
      hi (List.mem_append_left [v] hmem)⟩
    rcases List.mem_append.1 hi with hi | hi
    · exact h.settled i hi f hf
    · cases List.mem_singleton.1 hi
      cases he.symm.trans hf
      exact ⟨none, hwaits, hfirst⟩
  | some p =>
    have hwithin := Table.within_set_some p hwaits
    have hset : (t.assigned.set v (some p))[v]? = some (some p) :=
      List.getElem?_set_self (h.length_assigned ▸ hv)
    refine ⟨hfeasible, fun i hi f hf => ?_, fun i hi hlt => ?_⟩
    · rcases List.mem_append.1 hi with hi | hi
      · obtain ⟨q?, hq, hfirst'⟩ := h.settled i hi f hf
        have hne : v ≠ i := fun heq => hdone (heq ▸ hi)
        have hq' : (t.assigned.set v (some p))[i]? = some q? :=
          (List.getElem?_set_ne hne).trans hq
        -- where the event is held nothing clashes, whoever came after it
        refine ⟨q?, hq', hfirst'.of_within hwithin fun q hq => hfeasible.not_blocked ?_⟩
        rw [← Option.mem_def.1 hq]
        exact hq'
      · cases List.mem_singleton.1 hi
        cases he.symm.trans hf
        refine ⟨some p, hset, hfirst.of_within hwithin fun q hq => hfeasible.not_blocked ?_⟩
        rw [← Option.some.inj hq]
        exact hset
    · obtain ⟨hi, hne⟩ : i ∉ done ∧ i ≠ v := by simpa using hi
      exact (List.getElem?_set_ne hne.symm).trans (h.waiting i hi hlt)

/-- One turn, of an event that waits or of one that had its turn before. -/
theorem Fitted.fitOne {done : List Nat} (h : Fitted events done t) (hv : v < events.length) :
    ∃ t', t.fitOne v = .ok t' ∧ Fitted events (done ++ [v]) t' := by
  obtain ⟨e, he⟩ : ∃ e, events[v]? = some e := ⟨_, List.getElem?_eq_getElem hv⟩
  by_cases hdone : v ∈ done
  · have hmem (i : Nat) : i ∈ done ++ [v] ↔ i ∈ done := by
      rw [List.mem_append, List.mem_singleton]
      exact or_iff_left_of_imp fun hi => hi ▸ hdone
    refine ⟨t, (h.settled v hdone e he).fitOne_eq h.1 he, h.1, fun i hi => ?_, fun i hi => ?_⟩
    · exact h.settled i ((hmem i).1 hi)
    · exact h.waiting i fun hi' => hi ((hmem i).2 hi')
  · obtain ⟨p?, hfirst⟩ := exists_firstFree t v e.domain
    exact ⟨_, fitOne_eq h.1 he hfirst, h.hold hdone he hfirst⟩

/-- First fit settles all events. -/
theorem Fitted.assignFirstFit (h : Fitted events [] t) :
    ∃ t', t.assignFirstFit = .ok t' ∧ Fitted events (List.range events.length) t' := by
  unfold Timetable.assignFirstFit
  rw [h.events_eq]
  exact exists_foldlM_done (fun done v t hv ht => ht.fitOne (List.mem_range.1 hv)) h

/-- First fit changes nothing if all events are settled. -/
theorem Fitted.assignFirstFit_eq (h : Fitted events (List.range events.length) t) :
    t.assignFirstFit = .ok t := by
  have hstep : ∀ t' v, v ∈ List.range t.events.length → t' = t →
      ∃ t'', t'.fitOne v = .ok t'' ∧ t'' = t := by
    rintro _ v hv rfl
    rw [h.events_eq] at hv
    have he := List.getElem?_eq_getElem (List.mem_range.1 hv)
    exact ⟨_, (h.settled v hv _ he).fitOne_eq h.1 he, rfl⟩
  obtain ⟨_, hrun, rfl⟩ := exists_foldlM_eq_ok hstep rfl
  exact hrun

/-- First fit on a timetable without placements succeeds and leaves no hard conflict. Every event
that it places has a placement of its own domain, and for an event that it does not place every
placement of its domain shares the slot of another placed event, or the period of one of its own
curriculum. Doing it again changes nothing. -/
theorem assignFirstFit_maximal (events : List (Course α)) :
    ∃ t : Timetable α, (ofEvents events).assignFirstFit = .ok t ∧ t.events = events ∧
      t.hasHardConflicts = .ok false ∧
      (∀ (v : Nat) (e : Course α), events[v]? = some e → ∃ placed, t.assigned[v]? = some placed ∧
        (∀ p, placed = some p → p ∈ e.domain) ∧
        (placed = none → ∀ p ∈ e.domain, ∃ (i : Nat) (f : Course α) (q : Placement α), i ≠ v ∧
          events[i]? = some f ∧ t.assigned[i]? = some (some q) ∧
          (p.sameSlot q = true ∨ e.curriculum = f.curriculum ∧ p.period = q.period))) ∧
      t.assignFirstFit = .ok t := by
  obtain ⟨t, hrun, ht⟩ := (fitted_ofEvents events).assignFirstFit
  refine ⟨t, hrun, ht.events_eq, ?_, fun v e he => ?_, ht.assignFirstFit_eq⟩
  · refine hasHardConflicts_of_clashFree (fun v p hv => ?_) ht.clashFree
    rw [ht.events_eq, ← ht.length_assigned]
    exact (List.getElem?_eq_some_iff.1 hv).1
  · have hv : v ∈ List.range events.length :=
      List.mem_range.2 (List.getElem?_eq_some_iff.1 he).1
    obtain ⟨placed, hplaced, hfirst⟩ := ht.settled v hv e he
    refine ⟨placed, hplaced, fun p hp => (hp ▸ hfirst).mem, fun hnone p hp => ?_⟩
    obtain ⟨i, q, hi, hq, hclash⟩ := (hnone ▸ hfirst : t.FirstFree v e.domain none).blocked hp
    obtain ⟨e', f, he', hf, hclash⟩ := hclash
    rw [ht.events_eq] at he' hf
    cases he.symm.trans he'
    obtain ⟨hperiod, hroom | hcurriculum⟩ := clash_iff.1 hclash
    · exact ⟨i, f, q, hi, hf, hq, .inl (Placement.sameSlot_iff.2 ⟨hperiod.symm, hroom.symm⟩)⟩
    · exact ⟨i, f, q, hi, hf, hq, .inr ⟨hcurriculum.symm, hperiod.symm⟩⟩

end Timetable

end LocalSearch
