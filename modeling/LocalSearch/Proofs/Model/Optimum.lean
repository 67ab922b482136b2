import LocalSearch.Proofs.Exact
import LocalSearch.Proofs.Model.Atomic
/-!
# The total value of independent penalties

In exact arithmetic the total value is a sum with one term for every variable, so that a variable
with the least penalty of its row is right whatever the others have.

* `sum_mapM_of_ne`: one term of a sum changes.
* `Penalty.optimum`: the sum of the least penalties of the rows.
* `Penalty.optimum_le`: no complete assignment has a lower total value.
* `Penalty.Cheap`: every variable with an option has one of the least penalty of its row.
  `Penalty.Cheap.totalValue`: once it is complete such an assignment has the optimum.
-/

namespace LocalSearch

/-! ## Sums of computations -/

section

variable {K ε : Type} [AddCommGroup K] {c c' : Nat → Except ε K}

theorem sum_mapM_cons (i : Nat) (rest : List Nat) :
    List.sum <$> (i :: rest).mapM c =
      c i >>= fun z => (fun total => z + total) <$> List.sum <$> rest.mapM c := by
  rw [List.mapM_cons]
  cases c i with
  | error e => rfl
  | ok z =>
    cases rest.mapM c with
    | error e => rfl
    | ok zs => simp

/-- One of the computations that are summed gives another number. -/
theorem sum_mapM_of_ne {v : Nat} {x y : K} (hx : c v = .ok x) (hy : c' v = .ok y)
    (hrest : ∀ i, i ≠ v → c' i = c i) {items : List Nat} (hnodup : items.Nodup) :
    List.sum <$> items.mapM c' =
      (fun total => total + if v ∈ items then y - x else 0) <$> List.sum <$> items.mapM c := by
  -- by induction on the indices; the one that gives another number occurs at most once
  induction items with
  | nil => simp
  | cons i rest ih =>
    obtain ⟨hi, hnodup⟩ := List.nodup_cons.1 hnodup
    rw [sum_mapM_cons, sum_mapM_cons, ih hnodup]
    by_cases hiv : i = v
    · subst hiv
      rw [hx, hy, if_neg hi, if_pos List.mem_cons_self]
      simp only [ok_bind, Functor.map_map]
      refine congrArg (· <$> rest.mapM c) (funext fun zs => ?_)
      abel
    · rw [hrest i hiv]
      cases c i with
      | error e => rfl
      | ok z =>
        simp only [ok_bind, Functor.map_map]
        refine congrArg (· <$> rest.mapM c) (funext fun zs => ?_)
        simp only [List.mem_cons, Ne.symm hiv, false_or]
        abel

/-- The sum of computations whose results are known. -/
theorem sum_mapM_of_ok {m : Nat → K} {items : List Nat} (h : ∀ i ∈ items, c i = .ok (m i)) :
    List.sum <$> items.mapM c = .ok (items.map m).sum := by
  induction items with
  | nil => rfl
  | cons i rest ih =>
    rw [sum_mapM_cons, h i List.mem_cons_self, ih fun j hj => h j (List.mem_cons_of_mem i hj)]
    rfl

/-- The sum of computations whose results have lower bounds. -/
theorem le_sum_mapM [LinearOrder K] [IsOrderedAddMonoid K] {m : Nat → K} {items : List Nat}
    {total : K} (hle : ∀ i ∈ items, ∀ z, c i = .ok z → m i ≤ z)
    (h : List.sum <$> items.mapM c = .ok total) : (items.map m).sum ≤ total := by
  induction items generalizing total with
  | nil =>
    cases h
    exact le_refl _
  | cons i rest ih =>
    rw [sum_mapM_cons] at h
    obtain ⟨z, hz, h⟩ := bind_eq_ok_iff.1 h
    obtain ⟨total', htotal, rfl⟩ := map_eq_ok_iff.1 h
    rw [List.map_cons, List.sum_cons]
    exact add_le_add (hle i List.mem_cons_self z hz)
      (ih (fun j hj => hle j (List.mem_cons_of_mem i hj)) htotal)

end

namespace Penalty

variable {K : Type} [Field K] [LinearOrder K] {table : List (List K)} {p p' : Penalty K}
  {v option : Nat}

/-! ## The optimum -/

/-- The option of the variable has the least penalty of its row. -/
def Cheapest (table : List (List K)) (v option : Nat) : Prop :=
  ∃ row penalty, table[v]? = some row ∧ row[option]? = some penalty ∧ ∀ other ∈ row, penalty ≤ other

/-- The least penalty of a row. -/
def least (row : List K) : K :=
  row.min?.getD 0

/-- The sum of the least penalties of the rows. -/
def optimum (table : List (List K)) : K :=
  (table.map least).sum

theorem least_le {row : List K} {penalty : K} (h : penalty ∈ row) : least row ≤ penalty := by
  obtain ⟨least, hleast⟩ := Option.isSome_iff_exists.1 (List.isSome_min?_of_mem h)
  rw [Penalty.least, hleast]
  exact (List.min?_eq_some_iff.1 hleast).2 penalty h

theorem least_eq {row : List K} {penalty : K} (h : penalty ∈ row)
    (hle : ∀ other ∈ row, penalty ≤ other) : least row = penalty := by
  rw [least, List.min?_eq_some_iff.2 ⟨h, hle⟩]
  rfl

/-- The least penalty of the row of a variable. -/
def leastOf (table : List (List K)) (v : Nat) : K :=
  least (table[v]?.getD [])

theorem optimum_eq (table : List (List K)) :
    optimum table = ((List.range table.length).map (leastOf table)).sum := by
  unfold optimum
  congr 1
  refine List.ext_getElem (by simp) fun i hi _ => ?_
  have hlt : i < table.length := by simpa using hi
  simp [leastOf, hlt]

/-- Independent penalties of which every variable with an option has one of the least penalty of its
row. -/
structure Cheap (table : List (List K)) (p : Penalty K) : Prop where
  table_eq : p.table = table
  length_assigned : p.assigned.length = table.length
  cheapest : ∀ v option, p.assigned[v]? = some (some option) → Cheapest table v option

omit [Field K] in
theorem Cheap.filled (h : Cheap table p) : Filled table p where
  table_eq := h.table_eq
  length_assigned := h.length_assigned
  has v option hv := by
    obtain ⟨row, penalty, hrow, hpenalty, -⟩ := h.cheapest v option hv
    exact ⟨row, hrow, (List.getElem?_eq_some_iff.1 hpenalty).1⟩

omit [Field K] in
theorem cheap_ofTable (table : List (List K)) : Cheap table (ofTable table) where
  table_eq := rfl
  length_assigned := List.length_map _
  cheapest v option h := by
    obtain ⟨row, -, h⟩ := Option.map_eq_some_iff.1 (List.getElem?_map.symm.trans h)
    cases h

variable [Scalar.Functions K]

/-- At first every variable is without an option. -/
theorem unassignedCount_ofTable (table : List (List K)) :
    Model.unassignedCount (ofTable table) = table.length := by
  show ((table.map fun _ => none).filter Option.isNone).length = table.length
  rw [List.filter_eq_self.2 (by simp), List.length_map]

theorem totalValue_eq (p : Penalty K) :
    p.totalValue = List.sum <$> (List.range p.assigned.length).mapM p.current := by
  unfold totalValue
  cases (List.range p.assigned.length).mapM p.current with
  | error e => rfl
  | ok xs => exact congrArg Except.ok (Scalar.sum_eq xs)

theorem current_eq {row : List K} (hassigned : p.assigned[v]? = some (some option))
    (hrow : p.table[v]? = some row) : p.current v = fetch row option := by
  unfold current penaltyOf
  rw [fetch_eq_ok_iff.2 hassigned, ok_bind]
  dsimp only
  rw [fetch_eq_ok_iff.2 hrow, ok_bind]

/-- No complete assignment has a lower total value than the optimum. -/
theorem optimum_le [IsStrictOrderedRing K] {total : K} (htable : p.table = table)
    (hlength : p.assigned.length = table.length) (hcomplete : openCount p.assigned = 0)
    (htotal : p.totalValue = .ok total) : optimum table ≤ total := by
  rw [totalValue_eq, hlength] at htotal
  rw [optimum_eq]
  refine le_sum_mapM (fun i hi z hz => ?_) htotal
  have hlt : i < table.length := List.mem_range.1 hi
  obtain ⟨option, hoption⟩ := Table.exists_of_openCount_eq_zero hcomplete (hlength.symm ▸ hlt)
  have hrow : p.table[i]? = some table[i] := htable.symm ▸ List.getElem?_eq_getElem hlt
  rw [current_eq hoption hrow] at hz
  unfold leastOf
  rw [List.getElem?_eq_getElem hlt]
  exact least_le (List.mem_of_getElem? (fetch_eq_ok_iff.1 hz))

/-- A variable may get any option of least penalty. -/
theorem Cheap.assign (h : Cheap table p) (hcheapest : Cheapest table v option)
    (hassign : Model.assign p v option = .ok p') : Cheap table p' := by
  obtain ⟨_, hstore, hp⟩ := bind_eq_ok_iff.1 hassign
  obtain ⟨hlt, rfl⟩ := store_eq_ok_iff.1 hstore
  cases hp
  refine ⟨h.table_eq, List.length_set.trans h.length_assigned, fun i other hi => ?_⟩
  by_cases hiv : v = i
  · subst hiv
    have hsame : other = option := Table.eq_of_getElem?_set_self hi
    exact hsame ▸ hcheapest
  · rw [List.getElem?_set_ne hiv] at hi
    exact h.cheapest i other hi

/-- The total value of a complete assignment of least penalties. -/
theorem Cheap.totalValue (h : Cheap table p) (hcomplete : openCount p.assigned = 0) :
    p.totalValue = .ok (optimum table) := by
  rw [totalValue_eq, h.length_assigned, optimum_eq]
  refine sum_mapM_of_ok fun i hi => ?_
  have hlt : i < p.assigned.length := h.length_assigned.symm ▸ List.mem_range.1 hi
  obtain ⟨option, hoption⟩ := Table.exists_of_openCount_eq_zero hcomplete hlt
  obtain ⟨row, penalty, hrow, hpenalty, hle⟩ := h.cheapest i option hoption
  rw [current_eq hoption (h.table_eq.symm ▸ hrow), fetch_eq_ok_iff.2 hpenalty, leastOf, hrow]
  exact congrArg Except.ok (least_eq (List.mem_of_getElem? hpenalty) hle).symm

end Penalty

end LocalSearch
