import LocalSearch.Proofs.Exact
import LocalSearch.Proofs.Model.Feasible
/-!
# Lazy changes are made as a whole or not at all

A lazy change may displace values of other variables. Taking it back assigns them again one after
the other, and each of these assignments could displace others in its turn.

* `Penalty.Filled`: independent penalties with options that their rows have, so that the total value
  is defined. `Penalty.Exchange`: what an evaluated exchange of two options has found.
* `LazyChange.commit_exact`: what a lazy change answers and leaves, on either model.
* `LazyChange.commit_unpriced`: with an option that its row does not have there is no total value to
  compare, and a lazy change fails.
-/

namespace LocalSearch

open Attempt

/-! ## Independent penalties -/

namespace Penalty

variable {α : Type} {table : List (List α)} {p : Penalty α} {v option : Nat}

/-- The row of the variable has the option. -/
def Has (table : List (List α)) (v option : Nat) : Prop :=
  ∃ row, table[v]? = some row ∧ option < row.length

/-- An assignment of options to the rows of a table, each of them an option of its own row. -/
structure Filled (table : List (List α)) (p : Penalty α) : Prop where
  table_eq : p.table = table
  length_assigned : p.assigned.length = table.length
  has : ∀ v option, p.assigned[v]? = some (some option) → Has table v option

theorem Filled.exists_row (h : Filled table p) (hrows : [] ∉ table) (hv : v < p.assigned.length) :
    ∃ row, table[v]? = some row ∧ row ≠ [] := by
  have hlt : v < table.length := h.length_assigned ▸ hv
  refine ⟨table[v], List.getElem?_eq_getElem hlt, fun hnil => hrows ?_⟩
  exact hnil ▸ List.getElem_mem hlt

theorem assign_eq [Scalar α] (hv : v < p.assigned.length) :
    Model.assign p v option = .ok { p with
      assigned := p.assigned.set v (some option), assignments := p.assignments + 1 } :=
  bind_eq_ok_iff.2 ⟨_, store_eq_ok_iff.2 ⟨hv, rfl⟩, rfl⟩

theorem unassign_eq [Scalar α] (hv : v < p.assigned.length) :
    Model.unassign p v = .ok { p with assigned := p.assigned.set v none } :=
  bind_eq_ok_iff.2 ⟨_, store_eq_ok_iff.2 ⟨hv, rfl⟩, rfl⟩

/-- Every variable may change to no option or to one that its row has. -/
theorem Filled.set {n : Nat} {x : Option Nat} (h : Filled table p)
    (hx : ∀ option, x = some option → Has table v option) :
    Filled table { p with assigned := p.assigned.set v x, assignments := n } where
  table_eq := h.table_eq
  length_assigned := List.length_set.trans h.length_assigned
  has i option hi := by
    by_cases hiv : v = i
    · subst hiv
      obtain ⟨_, hget⟩ := List.getElem?_eq_some_iff.1 hi
      exact hx option (by simpa using hget)
    · rw [List.getElem?_set_ne hiv] at hi
      exact h.has i option hi

variable [Scalar α]

/-- The penalty of every variable is defined. -/
theorem Filled.exists_current (h : Filled table p) (hv : v < p.assigned.length) :
    ∃ penalty, p.current v = .ok penalty := by
  have hget := List.getElem?_eq_getElem hv
  cases hx : p.assigned[v] with
  | none =>
    rw [hx] at hget
    exact ⟨0, bind_eq_ok_iff.2 ⟨none, fetch_eq_ok_iff.2 hget, rfl⟩⟩
  | some option =>
    rw [hx] at hget
    obtain ⟨row, hrow, hlt⟩ := h.has v option hget
    refine ⟨row[option], bind_eq_ok_iff.2 ⟨some option, fetch_eq_ok_iff.2 hget, ?_⟩⟩
    refine bind_eq_ok_iff.2 ⟨row, fetch_eq_ok_iff.2 (h.table_eq ▸ hrow), ?_⟩
    exact fetch_eq_ok_iff.2 (List.getElem?_eq_getElem hlt)

theorem Filled.exists_totalValue (h : Filled table p) : ∃ total, p.totalValue = .ok total := by
  have hall : ∀ v ∈ List.range p.assigned.length, ∃ penalty, p.current v = .ok penalty :=
    fun v hv => h.exists_current (List.mem_range.1 hv)
  obtain ⟨penalties, hpenalties⟩ := exists_mapM_eq_ok hall
  exact ⟨_, bind_eq_ok_iff.2 ⟨penalties, hpenalties, rfl⟩⟩

/-- If the total value is defined, every option is one of its own row. -/
theorem filled_of_totalValue {total : α} (hlength : p.assigned.length = p.table.length)
    (h : p.totalValue = .ok total) : Filled p.table p where
  table_eq := rfl
  length_assigned := hlength
  has v option hv := by
    obtain ⟨penalties, hpenalties, -⟩ := bind_eq_ok_iff.1 h
    have hlt : v < p.assigned.length := (List.getElem?_eq_some_iff.1 hv).1
    obtain ⟨penalty, hcurrent⟩ := exists_of_mapM_eq_ok hpenalties (List.mem_range.2 hlt)
    obtain ⟨option?, hoption, hprice⟩ := bind_eq_ok_iff.1 hcurrent
    cases (fetch_eq_ok_iff.1 hoption).symm.trans hv
    obtain ⟨row, hrow, hprice⟩ := bind_eq_ok_iff.1 hprice
    exact ⟨row, fetch_eq_ok_iff.1 hrow,
      (List.getElem?_eq_some_iff.1 (fetch_eq_ok_iff.1 hprice)).1⟩

theorem Filled.exists_totalDomainSize (h : Filled table p) :
    ∃ n, Model.totalDomainSize p = .ok n := by
  have hall : ∀ v ∈ List.range p.assigned.length, ∃ n, List.length <$> Model.values p v = .ok n := by
    intro v hv
    have hlt : v < table.length := h.length_assigned ▸ List.mem_range.1 hv
    have hrow : p.table[v]? = some table[v] := h.table_eq.symm ▸ List.getElem?_eq_getElem hlt
    exact ⟨_, map_eq_ok_iff.2 ⟨_, bind_eq_ok_iff.2 ⟨_, fetch_eq_ok_iff.2 hrow, rfl⟩, rfl⟩⟩
  obtain ⟨sizes, hsizes⟩ := exists_mapM_eq_ok hall
  exact ⟨_, bind_eq_ok_iff.2 ⟨sizes, hsizes, rfl⟩⟩

/-- With options of their own rows no operation fails. -/
theorem serves_filled (table : List (List α)) : Model.Serves (Filled table) (Has table) where
  assign h hv hx := ⟨_, assign_eq hv, h.set fun _ ho => by cases ho; exact hx⟩
  unassign {p v} h hv := ⟨_, unassign_eq hv, h.set (n := p.assignments) fun _ ho => by cases ho⟩
  total h := h.exists_totalValue
  admits {p v option} h hv := h.has v option hv

/-- A value of its domain is an option of the variable's row. -/
theorem has_of_mem_values {values : List Nat} (hvalues : Model.values p v = .ok values)
    (hoption : option ∈ values) : Has p.table v option := by
  obtain ⟨row, hrow, h⟩ := bind_eq_ok_iff.1 hvalues
  cases h
  exact ⟨row, fetch_eq_ok_iff.1 hrow, List.mem_range.1 hoption⟩

/-- What an evaluated exchange of two options has found: either option in the row of the other
variable. -/
structure Exchange (p : Penalty α) (a b : Nat) (delta : α) (optionA optionB : Nat)
    (rowA rowB : List α) (beforeA beforeB afterA afterB : α) : Prop where
  assignedA : p.assigned[a]? = some (some optionA)
  assignedB : p.assigned[b]? = some (some optionB)
  rowA_eq : p.table[a]? = some rowA
  rowB_eq : p.table[b]? = some rowB
  afterA_eq : rowA[optionB]? = some afterA
  afterB_eq : rowB[optionA]? = some afterB
  beforeA_eq : rowA[optionA]? = some beforeA
  beforeB_eq : rowB[optionB]? = some beforeB
  delta_eq : delta = afterA + afterB - beforeA - beforeB

theorem exchange_of_swapDelta {p : Penalty α} {a b : Nat} {delta : α}
    (h : p.swapDelta a b = .ok (some delta)) :
    ∃ optionA optionB rowA rowB beforeA beforeB afterA afterB,
      p.Exchange a b delta optionA optionB rowA rowB beforeA beforeB afterA afterB := by
  unfold swapDelta at h
  obtain ⟨optionA?, hoptionA, h⟩ := bind_eq_ok_iff.1 h
  cases optionA? with
  | none => cases h
  | some optionA =>
  obtain ⟨optionB?, hoptionB, h⟩ := bind_eq_ok_iff.1 h
  cases optionB? with
  | none => cases h
  | some optionB =>
  obtain ⟨rowA, hrowA, h⟩ := bind_eq_ok_iff.1 h
  cases hafterA : rowA[optionB]? with
  | none => rw [hafterA] at h; cases h
  | some afterA =>
  rw [hafterA] at h
  obtain ⟨rowB, hrowB, h⟩ := bind_eq_ok_iff.1 h
  cases hafterB : rowB[optionA]? with
  | none => rw [hafterB] at h; cases h
  | some afterB =>
  rw [hafterB] at h
  obtain ⟨beforeA, hbeforeA, h⟩ := bind_eq_ok_iff.1 h
  obtain ⟨beforeB, hbeforeB, h⟩ := bind_eq_ok_iff.1 h
  cases h
  exact ⟨optionA, optionB, rowA, rowB, beforeA, beforeB, afterA, afterB,
    fetch_eq_ok_iff.1 hoptionA, fetch_eq_ok_iff.1 hoptionB, fetch_eq_ok_iff.1 hrowA,
    fetch_eq_ok_iff.1 hrowB, hafterA, hafterB, fetch_eq_ok_iff.1 hbeforeA,
    fetch_eq_ok_iff.1 hbeforeB, rfl⟩

/-- Options that can be exchanged are options of both rows. -/
theorem Exchange.has {a b optionA optionB : Nat} {rowA rowB : List α}
    {delta beforeA beforeB afterA afterB : α}
    (h : p.Exchange a b delta optionA optionB rowA rowB beforeA beforeB afterA afterB) :
    Has p.table a optionB ∧ Has p.table b optionA :=
  ⟨⟨rowA, h.rowA_eq, (List.getElem?_eq_some_iff.1 h.afterA_eq).1⟩,
    rowB, h.rowB_eq, (List.getElem?_eq_some_iff.1 h.afterB_eq).1⟩

/-- Assigning and unassigning leave the table alone. -/
theorem invariant_table (table : List (List α)) :
    Model.Invariant fun p : Penalty α => p.table = table where
  assign h hrun := by
    obtain ⟨_, -, hp⟩ := bind_eq_ok_iff.1 hrun
    cases hp
    exact h
  unassign h hrun := by
    obtain ⟨_, -, hp⟩ := bind_eq_ok_iff.1 hrun
    cases hp
    exact h
  failed h := h
  spoiled h := h

end Penalty

/-- Assigning and unassigning leave the events alone. -/
theorem Timetable.invariant_events {α : Type} [Scalar α] (events : List (Course α)) :
    Model.Invariant fun t : Timetable α => t.events = events where
  assign h hrun := by
    obtain ⟨_, -, ht⟩ := bind_eq_ok_iff.1 hrun
    cases ht
    exact h
  unassign h hrun := by
    obtain ⟨_, -, ht⟩ := bind_eq_ok_iff.1 hrun
    cases ht
    exact h
  failed h := h
  spoiled h := h

/-! ## Lazy changes -/

namespace LazyChange

/-- A lazy change is made as a whole or not at all, and it says by how much it changed the total
value while it was made. If the predicate refuses, the model is left as it was, apart from the count
of the assignments that were made. -/
theorem commit_exact {α : Type} [Scalar α] :
    (∀ (p : Penalty α) (v option : Nat) (row : List α) (accept : Penalty α → α → α → Bool),
      p.assigned.length = p.table.length →
      (∀ i o, p.assigned[i]? = some (some o) → Penalty.Has p.table i o) →
      p.table[v]? = some row → option < row.length →
      ∃ (made : Penalty α) (before after : α), Model.assign p v option = .ok made ∧
        p.totalValue = .ok before ∧ made.totalValue = .ok after ∧
        if accept made after (after - before) then
          (LazyChange.mk v option).commit accept p = .ok (.applied (after - before)) made
        else ∃ count, (LazyChange.mk v option).commit accept p =
          .ok (.rejected (after - before)) { p with assignments := count }) ∧
    ∀ (t : Timetable α) (v : Nat) (x : Placement α) (accept : Timetable α → α → α → Bool),
      t.assigned.length = t.events.length → t.hasHardConflicts = .ok false → v < t.events.length →
      ∃ made : Timetable α, Model.assign t v x = .ok made ∧
        if accept made (made.totalOf made.assigned)
            (made.totalOf made.assigned - t.totalOf t.assigned) then
          (LazyChange.mk v x).commit accept t =
            .ok (.applied (made.totalOf made.assigned - t.totalOf t.assigned)) made
        else (LazyChange.mk v x).commit accept t =
          .ok (.rejected (made.totalOf made.assigned - t.totalOf t.assigned)) t := by
  constructor
  · intro p v option row accept hlength hhas hrow hoption
    have hfilled : Penalty.Filled p.table p := ⟨rfl, hlength, hhas⟩
    have hv : v < p.assigned.length := hlength ▸ (List.getElem?_eq_some_iff.1 hrow).1
    obtain ⟨made, before, after, hassign, hbefore, hafter, hrun⟩ :=
      commit_atomic (Penalty.serves_filled p.table) hfilled (p.clashFree p.assigned)
        (c := ⟨v, option⟩) hv ⟨row, hrow, hoption⟩ accept
    refine ⟨made, before, after, hassign, hbefore, hafter, ?_⟩
    split
    · rename_i haccept
      rw [if_pos haccept] at hrun
      exact hrun
    · rename_i haccept
      rw [if_neg haccept] at hrun
      obtain ⟨p', hrun, hbecomes⟩ := hrun
      have htable : p'.table = p.table :=
        (commit_ensures (Penalty.invariant_table p.table) ⟨v, option⟩ accept).of_ok rfl hrun
      obtain ⟨table, assigned, best, count⟩ := p'
      cases htable
      cases (hbecomes.assigned : assigned = p.assigned)
      cases (hbecomes.kept : best = p.best)
      exact ⟨count, hrun⟩
  · intro t v x accept hlength hhard hv
    have hsound : Model.Sound t := Timetable.clashFree_of_hasHardConflicts hhard
    obtain ⟨made, before, after, hassign, hbefore, hafter, hrun⟩ :=
      commit_atomic Timetable.serves_sized (m := t) hlength hsound (c := ⟨v, x⟩)
        (hlength.symm ▸ hv) trivial accept
    cases hbefore
    cases hafter
    refine ⟨made, hassign, ?_⟩
    split
    · rename_i haccept
      rw [if_pos haccept] at hrun
      exact hrun
    · rename_i haccept
      rw [if_neg haccept] at hrun
      obtain ⟨t', hrun, hbecomes⟩ := hrun
      have hevents : t'.events = t.events :=
        (commit_ensures (Timetable.invariant_events t.events) ⟨v, x⟩ accept).of_ok rfl hrun
      obtain ⟨events, assigned, best⟩ := t'
      cases hevents
      cases (hbecomes.assigned : assigned = t.assigned)
      cases (hbecomes.kept : best = t.best)
      exact hrun

/-- A refused change to a dearer option is taken back. A refused change of a placed event displaces
another event, and both are back afterwards. -/
theorem commit_exact_displaced :
    let p : Penalty ℚ := ⟨[[1, 4], [5]], [some 0, some 0], none, 2⟩
    let t : Timetable ℚ :=
      ⟨[⟨"A", 0, []⟩, ⟨"B", 1, []⟩], [some ⟨0, 0, 1⟩, some ⟨1, 0, 2⟩], none⟩
    (∃ count, (LazyChange.mk 0 1).commit (fun _ _ _ => false) p =
      .ok (.rejected 3) { p with assignments := count }) ∧
    t.hasHardConflicts = .ok false ∧
      (LazyChange.mk 0 ⟨1, 0, 5⟩).commit (fun _ _ _ => false) t = .ok (.rejected 2) t := by
  intro p t
  constructor
  · have hhas : ∀ i o, p.assigned[i]? = some (some o) → Penalty.Has p.table i o := by
      intro i o hi
      match i, hi with
      | 0, hi => cases hi; exact ⟨_, rfl, by decide⟩
      | 1, hi => cases hi; exact ⟨_, rfl, by decide⟩
    obtain ⟨made, before, after, hmade, hbefore, hafter, hrun⟩ := (commit_exact (α := ℚ)).1 p 0 1
      [1, 4] (fun _ _ _ => false) rfl hhas rfl (by decide)
    cases hmade
    cases hbefore
    cases hafter
    rw [if_neg Bool.false_ne_true] at hrun
    have hdelta : Scalar.sum [(5 : ℚ), 4].reverse - Scalar.sum [(5 : ℚ), 1].reverse = 3 := by
      decide +kernel
    rw [← hdelta]
    exact hrun
  · have hhard : t.hasHardConflicts = .ok false := by decide +kernel
    obtain ⟨made, hmade, hrun⟩ := (commit_exact (α := ℚ)).2 t 0 ⟨1, 0, 5⟩ (fun _ _ _ => false) rfl
      hhard (by decide)
    cases hmade
    rw [if_neg Bool.false_ne_true] at hrun
    have hdelta : t.totalOf [some ⟨1, 0, 5⟩, none] - t.totalOf t.assigned = 2 := by decide +kernel
    rw [← hdelta]
    exact ⟨hhard, hrun⟩

/-- With an option that its row does not have there is no total value to compare, and a lazy change
of another variable does not come to an end. -/
theorem commit_unpriced :
    let p : Penalty ℚ := ⟨[[1, 4], [5]], [some 0, some 7], none, 0⟩
    Penalty.ofAssigned [[1, 4], [5]] [some 0, some 7] = .ok p ∧
      (LazyChange.mk 0 1).commit (fun _ _ _ => false) p =
        .error (.fault (.indexOutOfBounds 1 7)) p :=
  ⟨rfl, rfl⟩

end LazyChange

end LocalSearch
