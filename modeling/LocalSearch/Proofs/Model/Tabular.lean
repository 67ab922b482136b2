import LocalSearch.Model.Penalty
import LocalSearch.Model.Timetable
import LocalSearch.Proofs.Attempt
import LocalSearch.Proofs.Model.Table
/-!
# Models with tables

What the models have in common: the assignment and the best assignment are tables, and the conflicts
of a value are the values of other variables that clash with it.

* `Model.ensures_put`: what an assignment does to a model of any kind, also if it fails.
* `Model.Tabular`: a model with tables. Its laws say what the operations of `Model` do to them.
* `Model.Sound`: the assignment has no clash.
* The instances for `Penalty`, in which nothing clashes, and for `Timetable`.
* `Timetable.clashFree_of_hasHardConflicts`: the program's own test for clashes.
-/

namespace LocalSearch

namespace Model

open Attempt

variable {M V α : Type} [Model M V α] {m m' : M} {v : Nat} {x : V} {P E : M → Prop}
  {Q : Unit → M → Prop}

theorem put_of_ok (h : Model.assign m v x = .ok m') : Model.put v x m = .ok () m' := by
  simp only [put, h]

theorem put_of_error {fault : Fault} (h : Model.assign m v x = .error fault) :
    Model.put v x m = .error (.fault fault) (Model.spoiled m) := by
  simp only [put, h]

theorem ensures_put (hQ : ∀ m m', P m → Model.assign m v x = .ok m' → Q () m')
    (hE : ∀ m, P m → E (Model.spoiled m)) : Ensures P (Model.put v x) Q E := by
  intro m hm
  cases hassign : Model.assign m v x with
  | ok m' =>
    rw [put_of_ok hassign]
    exact hQ m m' hm hassign
  | error fault =>
    rw [put_of_error hassign]
    exact hE m hm

theorem ensures_put_at (hE : E (Model.spoiled m)) :
    Ensures (· = m) (Model.put v x) (fun _ m' => Model.assign m v x = .ok m') E :=
  ensures_put (fun _ _ hm h => hm ▸ h) fun _ hm => hm ▸ hE

/-- An assignment that is known to give a result does not fail. -/
theorem ensures_put_of_ok (h : ∀ m, P m → ∃ m', Model.assign m v x = .ok m' ∧ Q () m') :
    Ensures P (Model.put v x) Q E := by
  intro m hm
  obtain ⟨m', hassign, hQ⟩ := h m hm
  rw [put_of_ok hassign]
  exact hQ

end Model

/-- The tables of a model, and which values of two variables clash. -/
class Model.Tables (M : Type) (V : outParam Type) where
  assigned : M → Table V
  kept : M → Option (Table V)
  clash : M → Nat → V → Nat → V → Prop

/-- The second model is the first one with another assignment. -/
structure Model.Becomes {M V : Type} [Model.Tables M V] (m : M) (a : Table V) (m' : M) : Prop where
  assigned : Tables.assigned m' = a
  kept : Tables.kept m' = Tables.kept m
  clash : Tables.clash m' = Tables.clash m

open Model.Tables (assigned kept clash)

/-- A model that works on tables. -/
class Model.Tabular (M : Type) {V α : outParam Type} [Model M V α] extends Model.Tables M V where
  clash_comm {m : M} {i j : Nat} {x y : V} : clash m i x j y → clash m j y i x
  assignment_eq (m : M) (v : Nat) : Model.assignment m v = fetch (assigned m) v
  unassignedCount_eq (m : M) : Model.unassignedCount m = (assigned m).openCount
  bestUnassignedCount_eq {m : M} {k : Table V} : kept m = some k →
    Model.bestUnassignedCount m = k.openCount
  mem_conflicts {m : M} {v : Nat} {x : V} {out : List Nat} : Model.conflicts m v x = .ok out →
    ∀ i, i ∈ out ↔ i ≠ v ∧ ∃ y, (assigned m)[i]? = some (some y) ∧ clash m v x i y
  assign_eq_ok {m m' : M} {v : Nat} {x : V} : Model.assign m v x = .ok m' →
    v < (assigned m).length ∧ ∃ out, Model.conflicts m v x = .ok out ∧
      Becomes m (((assigned m).evict out).set v (some x)) m'
  unassign_eq_ok {m m' : M} {v : Nat} : Model.unassign m v = .ok m' →
    v < (assigned m).length ∧ Becomes m ((assigned m).set v none) m'
  /-- A failing assignment may lose values, and changes nothing else. -/
  spoiled_becomes (m : M) : Becomes m (assigned (Model.spoiled m)) (Model.spoiled m)
  within_spoiled (m : M) : Table.Within (assigned (Model.spoiled m)) (assigned m)
  assigned_saveBest (m : M) : assigned (Model.saveBest m) = assigned m
  kept_saveBest (m : M) : kept (Model.saveBest m) = some (assigned m)
  clash_saveBest (m : M) : clash (Model.saveBest m) = clash m
  restoreBest_becomes {m : M} {k : Table V} : kept m = some k → Becomes m k (Model.restoreBest m)
  /-- Two values are exchanged only if neither clashes with what stays or with the other one. -/
  swapDelta_eq_some {m : M} {a b : Nat} {x y : V} {delta : α} :
    Model.swapDelta m a b = .ok (some delta) → a ≠ b → (assigned m)[a]? = some (some x) →
    (assigned m)[b]? = some (some y) → ¬ clash m a y b x ∧
    ∀ (i : Nat) (z : V), i ≠ a → i ≠ b → (assigned m)[i]? = some (some z) →
      ¬ clash m a y i z ∧ ¬ clash m b x i z

/-- The assignment has no clash. -/
def Model.Sound {M V : Type} [Model.Tables M V] (m : M) : Prop :=
  Table.ClashFree (clash m) (assigned m)

/-! ## Independent penalties -/

namespace Penalty

variable {α : Type} [Scalar α]

omit [Scalar α] in
instance : Model.Tables (Penalty α) Nat where
  assigned := Penalty.assigned
  kept := Penalty.best
  clash _ _ _ _ _ := False

instance : Model.Tabular (Penalty α) where
  clash_comm h := h
  assignment_eq _ _ := rfl
  unassignedCount_eq _ := rfl
  bestUnassignedCount_eq {m k} h := by
    show (m.best.map openCount).getD m.assigned.length = k.openCount
    rw [show m.best = some k from h]
    rfl
  mem_conflicts {m v x out} h i := by
    cases h
    constructor
    · intro hi
      cases hi
    · rintro ⟨-, y, -, h⟩
      exact h.elim
  assign_eq_ok {m m' v x} h := by
    obtain ⟨a, ha, hm⟩ := bind_eq_ok_iff.1 h
    obtain ⟨hlt, rfl⟩ := store_eq_ok_iff.1 ha
    cases hm
    exact ⟨hlt, [], rfl, rfl, rfl, rfl⟩
  unassign_eq_ok {m m' v} h := by
    obtain ⟨a, ha, hm⟩ := bind_eq_ok_iff.1 h
    obtain ⟨hlt, rfl⟩ := store_eq_ok_iff.1 ha
    cases hm
    exact ⟨hlt, rfl, rfl, rfl⟩
  spoiled_becomes _ := ⟨rfl, rfl, rfl⟩
  within_spoiled m := Table.within_refl m.assigned
  assigned_saveBest _ := rfl
  kept_saveBest _ := rfl
  clash_saveBest _ := rfl
  restoreBest_becomes {m k} h := by
    refine ⟨?_, rfl, rfl⟩
    show m.best.getD (m.assigned.map fun _ => none) = k
    rw [show m.best = some k from h]
    rfl
  swapDelta_eq_some _ _ _ _ := ⟨id, fun _ _ _ _ _ => ⟨id, id⟩⟩

omit [Scalar α] in
/-- No assignment of independent penalties has a clash. -/
theorem clashFree (p : Penalty α) (a : Table Nat) : a.ClashFree (Model.Tables.clash p) :=
  fun _ _ _ _ _ _ _ => id

end Penalty

/-! ## Timetables -/

theorem Placement.sameSlot_iff {α : Type} {p q : Placement α} :
    p.sameSlot q = true ↔ p.period = q.period ∧ p.room = q.room := by
  simp [Placement.sameSlot]

theorem Placement.sameSlot_self {α : Type} (p : Placement α) : p.sameSlot p = true := by
  simp [Placement.sameSlot]

namespace Timetable

variable {α : Type}

/-- Two placements of existing events clash. -/
def Clashes (t : Timetable α) (v : Nat) (p : Placement α) (i : Nat) (q : Placement α) : Prop :=
  ∃ e f, t.events[v]? = some e ∧ t.events[i]? = some f ∧ Timetable.clash e p f q = true

instance : Model.Tables (Timetable α) (Placement α) where
  assigned := Timetable.assigned
  kept := Timetable.best
  clash := Clashes

/-- Two placements clash if they share a slot, or a period with a curriculum. -/
theorem clash_iff {e : Course α} {p : Placement α} {f : Course α} {q : Placement α} :
    Timetable.clash e p f q = true ↔
      q.period = p.period ∧ (q.room = p.room ∨ f.curriculum = e.curriculum) := by
  simp only [Timetable.clash, Placement.sameSlot, Bool.or_eq_true, Bool.and_eq_true, beq_iff_eq]
  constructor
  · rintro (⟨hperiod, hroom⟩ | ⟨hcurriculum, hperiod⟩)
    · exact ⟨hperiod, .inl hroom⟩
    · exact ⟨hperiod, .inr hcurriculum⟩
  · rintro ⟨hperiod, hroom | hcurriculum⟩
    · exact .inl ⟨hperiod, hroom⟩
    · exact .inr ⟨hcurriculum, hperiod⟩

theorem clashes_comm {t : Timetable α} {v i : Nat} {p q : Placement α} (h : t.Clashes v p i q) :
    t.Clashes i q v p := by
  obtain ⟨e, f, he, hf, h⟩ := h
  obtain ⟨hperiod, h⟩ := clash_iff.1 h
  exact ⟨f, e, hf, he, clash_iff.2 ⟨hperiod.symm, h.imp Eq.symm Eq.symm⟩⟩

/-- Only the slots of placements matter for clashes. -/
theorem clashes_of_sameSlot {t : Timetable α} {v i : Nat} {p p' q q' : Placement α}
    (hp : p'.sameSlot p = true) (hq : q'.sameSlot q = true) (h : t.Clashes v p i q) :
    t.Clashes v p' i q' := by
  simp only [Placement.sameSlot, Bool.and_eq_true, beq_iff_eq] at hp hq
  obtain ⟨e, f, he, hf, h⟩ := h
  rw [clash_iff] at h
  refine ⟨e, f, he, hf, clash_iff.2 ?_⟩
  rw [hp.1, hp.2, hq.1, hq.2]
  exact h

/-- The conflicts of an existing event can be computed. -/
theorem exists_conflictsIn {t : Timetable α} {v : Nat} {e : Course α} (p : Placement α)
    (a : Table (Placement α)) (he : t.events[v]? = some e) :
    ∃ out, t.conflictsIn a v p = .ok out :=
  ⟨_, bind_eq_ok_iff.2 ⟨e, fetch_eq_ok_iff.2 he, rfl⟩⟩

/-- The conflicts of a placement are the other events whose placements clash with it. -/
theorem mem_conflictsIn {t : Timetable α} {a : Table (Placement α)} {v : Nat} {p : Placement α}
    {out : List Nat} (h : t.conflictsIn a v p = .ok out) (i : Nat) :
    i ∈ out ↔ i ≠ v ∧ ∃ q, a[i]? = some (some q) ∧ t.Clashes v p i q := by
  obtain ⟨e, he, h⟩ := bind_eq_ok_iff.1 h
  have he := fetch_eq_ok_iff.1 he
  rw [← pure_eq_ok_iff.1 h, List.mem_filterMap]
  constructor
  · rintro ⟨⟨⟨f, placed⟩, j⟩, hmem, hj⟩
    obtain ⟨hf, hplaced⟩ := List.getElem?_zip_eq_some.1 (List.mem_zipIdx_iff_getElem?.1 hmem)
    cases placed with
    | none => cases hj
    | some q =>
      dsimp only at hj
      split at hj
      · rename_i hclash
        cases hj
        exact ⟨hclash.1, q, hplaced, e, f, he, hf, hclash.2⟩
      · cases hj
  · rintro ⟨hi, q, hq, e', f, he', hf, hclash⟩
    rw [he] at he'
    cases he'
    refine ⟨((f, some q), i), List.mem_zipIdx_iff_getElem?.2 ?_, ?_⟩
    · exact List.getElem?_zip_eq_some.2 ⟨hf, hq⟩
    · simp [hi, hclash]

theorem place_eq_ok {t : Timetable α} {a a' : Table (Placement α)} {v : Nat} {p : Placement α}
    (h : t.place a v p = .ok a') :
    v < a.length ∧ ∃ out, t.conflictsIn a v p = .ok out ∧ a' = (a.evict out).set v (some p) := by
  obtain ⟨out, hout, h⟩ := bind_eq_ok_iff.1 h
  obtain ⟨hlt, rfl⟩ := store_eq_ok_iff.1 h
  have hlt : v < (Table.evict a out).length := hlt
  rw [Table.length_evict] at hlt
  exact ⟨hlt, out, hout, rfl⟩

/-- An existing event can be placed anywhere. -/
theorem exists_place {t : Timetable α} {a : Table (Placement α)} {v : Nat} {e : Course α}
    (p : Placement α) (he : t.events[v]? = some e) (hlt : v < a.length) :
    ∃ a', t.place a v p = .ok a' := by
  obtain ⟨out, hout⟩ := exists_conflictsIn p a he
  have hlt : v < (Table.evict a out).length := by
    rw [Table.length_evict]
    exact hlt
  exact ⟨_, bind_eq_ok_iff.2 ⟨out, hout, store_eq_ok_iff.2 ⟨hlt, rfl⟩⟩⟩

/-- What an evaluated exchange of two placements has found: for either event the placement of its
own domain in the slot of the other one, and that nothing is in their way. -/
structure Exchange [Scalar α] (t : Timetable α) (a b : Nat) (delta : α) (p q p' q' : Placement α)
    (e f : Course α) : Prop where
  placedA : t.assigned[a]? = some (some p)
  placedB : t.assigned[b]? = some (some q)
  eventA : t.events[a]? = some e
  eventB : t.events[b]? = some f
  foundA : e.domain.find? (·.sameSlot q) = some q'
  foundB : f.domain.find? (·.sameSlot p) = some p'
  freeA : t.conflictsIn ((t.assigned.set a none).set b none) a q' = .ok []
  freeB : t.conflictsIn (((t.assigned.set a none).set b none).set a (some q')) b p' = .ok []
  delta_eq : delta =
    t.totalOf ((((t.assigned.set a none).set b none).set a (some q')).set b (some p')) -
      t.totalOf t.assigned

theorem exchange_of_swapDelta [Scalar α] {t : Timetable α} {a b : Nat} {delta : α}
    (h : t.swapDelta a b = .ok (some delta)) :
    ∃ p q p' q' e f, t.Exchange a b delta p q p' q' e f := by
  unfold swapDelta at h
  obtain ⟨p?, hp, h⟩ := bind_eq_ok_iff.1 h
  cases p? with
  | none => cases h
  | some p =>
  obtain ⟨q?, hq, h⟩ := bind_eq_ok_iff.1 h
  cases q? with
  | none => cases h
  | some q =>
  obtain ⟨e, he, h⟩ := bind_eq_ok_iff.1 h
  dsimp only at h
  cases hfoundA : e.domain.find? (·.sameSlot q) with
  | none => rw [hfoundA] at h; cases h
  | some q' =>
  rw [hfoundA] at h
  obtain ⟨f, hf, h⟩ := bind_eq_ok_iff.1 h
  cases hfoundB : f.domain.find? (·.sameSlot p) with
  | none => rw [hfoundB] at h; cases h
  | some p' =>
  rw [hfoundB] at h
  obtain ⟨outA, houtA, h⟩ := bind_eq_ok_iff.1 h
  cases outA with
  | cons i rest => cases h
  | nil =>
  obtain ⟨outB, houtB, h⟩ := bind_eq_ok_iff.1 h
  cases outB with
  | cons i rest => cases h
  | nil =>
  cases h
  exact ⟨p, q, p', q', e, f, fetch_eq_ok_iff.1 hp, fetch_eq_ok_iff.1 hq, fetch_eq_ok_iff.1 he,
    fetch_eq_ok_iff.1 hf, hfoundA, hfoundB, houtA, houtB, rfl⟩

section

variable [Scalar α] {t : Timetable α} {a b : Nat} {delta : α} {p q p' q' : Placement α}
  {e f : Course α}

theorem Exchange.sameSlotA (h : t.Exchange a b delta p q p' q' e f) : q'.sameSlot q = true := by
  simpa using List.find?_some h.foundA

theorem Exchange.sameSlotB (h : t.Exchange a b delta p q p' q' e f) : p'.sameSlot p = true := by
  simpa using List.find?_some h.foundB

/-- The exchanged placements do not clash with each other. -/
theorem Exchange.not_clashes (h : t.Exchange a b delta p q p' q' e f) (hab : a ≠ b) :
    ¬ t.Clashes a q b p := by
  intro hclash
  obtain ⟨hlt, -⟩ := List.getElem?_eq_some_iff.1 h.placedA
  -- the second placement was tried with the first one in place, so the clash would have been found
  have hin : a ∈ [] := by
    refine (mem_conflictsIn h.freeB a).2 ⟨hab, q', ?_, ?_⟩
    · simp [hlt]
    · exact clashes_comm (clashes_of_sameSlot h.sameSlotA h.sameSlotB hclash)
  cases hin

/-- The exchanged placements do not clash with others. -/
theorem Exchange.not_clashes_other (h : t.Exchange a b delta p q p' q' e f) (i : Nat)
    (r : Placement α) (ha : i ≠ a) (hb : i ≠ b) (hr : t.assigned[i]? = some (some r)) :
    ¬ t.Clashes a q i r ∧ ¬ t.Clashes b p i r := by
  -- the others were in place when both new placements were tried
  have hrest : ((t.assigned.set a none).set b none)[i]? = some (some r) := by
    rw [List.getElem?_set_ne hb.symm, List.getElem?_set_ne ha.symm, hr]
  constructor
  · intro hclash
    have hin : i ∈ [] := (mem_conflictsIn h.freeA i).2
      ⟨ha, r, hrest, clashes_of_sameSlot h.sameSlotA (Placement.sameSlot_self r) hclash⟩
    cases hin
  · intro hclash
    have hin : i ∈ [] := by
      refine (mem_conflictsIn h.freeB i).2 ⟨hb, r, ?_, ?_⟩
      · rw [List.getElem?_set_ne ha.symm, hrest]
      · exact clashes_of_sameSlot h.sameSlotB (Placement.sameSlot_self r) hclash
    cases hin

end

instance [Scalar α] : Model.Tabular (Timetable α) where
  clash_comm := clashes_comm
  assignment_eq _ _ := rfl
  unassignedCount_eq _ := rfl
  bestUnassignedCount_eq {m k} h := by
    show (m.best.map openCount).getD m.events.length = k.openCount
    rw [show m.best = some k from h]
    rfl
  mem_conflicts h := mem_conflictsIn h
  assign_eq_ok {m m' v x} h := by
    obtain ⟨a, ha, hm⟩ := bind_eq_ok_iff.1 h
    obtain ⟨hlt, out, hout, rfl⟩ := place_eq_ok ha
    cases hm
    exact ⟨hlt, out, hout, rfl, rfl, rfl⟩
  unassign_eq_ok {m m' v} h := by
    obtain ⟨a, ha, hm⟩ := bind_eq_ok_iff.1 h
    obtain ⟨hlt, rfl⟩ := store_eq_ok_iff.1 ha
    cases hm
    exact ⟨hlt, rfl, rfl, rfl⟩
  spoiled_becomes _ := ⟨rfl, rfl, rfl⟩
  within_spoiled m := Table.within_nil m.assigned
  assigned_saveBest _ := rfl
  kept_saveBest _ := rfl
  clash_saveBest _ := rfl
  restoreBest_becomes {m k} h := by
    refine ⟨?_, rfl, rfl⟩
    show m.best.getD (m.events.map fun _ => none) = k
    rw [show m.best = some k from h]
    rfl
  swapDelta_eq_some {m a b x y delta} h hab hx hy := by
    obtain ⟨p, q, p', q', e, f, hexchange⟩ := exchange_of_swapDelta h
    cases hexchange.placedA.symm.trans hx
    cases hexchange.placedB.symm.trans hy
    exact ⟨hexchange.not_clashes hab, hexchange.not_clashes_other⟩

/-- If the program's test finds no conflicts, it has found the event of every placement. -/
theorem lt_length_of_hasHardConflicts {t : Timetable α} (h : t.hasHardConflicts = .ok false)
    {v : Nat} {p : Placement α} (hp : t.assigned[v]? = some (some p)) : v < t.events.length := by
  have hmem : (some p, v) ∈ t.assigned.zipIdx := List.mem_zipIdx_iff_getElem?.2 hp
  obtain ⟨out, hout, -⟩ := bind_eq_ok_iff.1 (of_anyM_eq_ok_false h hmem)
  obtain ⟨e, he, -⟩ := bind_eq_ok_iff.1 hout
  exact (List.getElem?_eq_some_iff.1 (fetch_eq_ok_iff.1 he)).1

/-- If the program's test finds no conflicts, no two placements clash. -/
theorem clashFree_of_hasHardConflicts {t : Timetable α} (h : t.hasHardConflicts = .ok false) :
    Table.ClashFree t.Clashes t.assigned := by
  intro i j p q hij hp hq hclash
  -- the test looks from every placed event at all others, so also from the first one at the second
  have hmem : (some p, i) ∈ t.assigned.zipIdx := List.mem_zipIdx_iff_getElem?.2 hp
  obtain ⟨out, hout, hempty⟩ := bind_eq_ok_iff.1 (of_anyM_eq_ok_false h hmem)
  have hin : j ∈ out := (mem_conflictsIn hout j).2 ⟨hij.symm, q, hq, hclash⟩
  cases out with
  | nil => cases hin
  | cons k rest => cases hempty

end Timetable

end LocalSearch
