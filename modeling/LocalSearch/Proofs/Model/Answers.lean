import LocalSearch.Proofs.Model.Atomic
/-!
# What the two models answer

* `Penalty.answers`, `Penalty.Filled.prices`: on independent penalties the effects need options that
  their rows have, the rest does not.
* `Timetable.Sized.answers`, `Timetable.Sized.prices`: a timetable answers everything.
-/

namespace LocalSearch

/-! ## Independent penalties -/

namespace Penalty

variable {α : Type} [Scalar α] {table : List (List α)} {p : Penalty α} {v option : Nat}

/-- Everything but effects is known. -/
theorem answers (hlength : p.assigned.length = p.table.length) : Model.Answers p where
  assignment hv := ⟨_, fetch_eq_ok_iff.2 (List.getElem?_eq_getElem hv)⟩
  values hv :=
    ⟨_, bind_eq_ok_iff.2 ⟨_, fetch_eq_ok_iff.2 (List.getElem?_eq_getElem (hlength ▸ hv)), rfl⟩⟩
  conflicts _ _ := ⟨[], rfl⟩

/-- The effect of every option of the row is known if the penalty of the current one is. -/
theorem pricesAt {current : α} (hcurrent : p.current v = .ok current) : Model.PricesAt p v := by
  intro values option hvalues hmem
  obtain ⟨row, hrow, hlt⟩ := has_of_mem_values hvalues hmem
  have hafter := fetch_eq_ok_iff.2 (List.getElem?_eq_getElem hlt)
  exact ⟨_, bind_eq_ok_iff.2 ⟨row, fetch_eq_ok_iff.2 hrow, bind_eq_ok_iff.2
    ⟨row[option], hafter, bind_eq_ok_iff.2 ⟨current, hcurrent, rfl⟩⟩⟩⟩

/-- No effect is known if the penalty of the current option is not. -/
theorem exists_current_of_delta {delta : α} (h : Model.delta p v option = .ok delta) :
    ∃ current, p.current v = .ok current := by
  obtain ⟨row, -, h⟩ := bind_eq_ok_iff.1 h
  obtain ⟨after, -, h⟩ := bind_eq_ok_iff.1 h
  obtain ⟨current, hcurrent, -⟩ := bind_eq_ok_iff.1 h
  exact ⟨current, hcurrent⟩

/-- No option costs nothing. -/
theorem current_of_unassigned (h : Model.assignment p v = .ok none) : p.current v = .ok 0 :=
  bind_eq_ok_iff.2 ⟨none, h, rfl⟩

/-- With options of their own rows all effects are known. -/
theorem Filled.prices (h : Filled table p) : Model.Prices p where
  value v values option hvalues hmem := by
    obtain ⟨row, hrow, -⟩ := has_of_mem_values hvalues hmem
    have hv : v < p.assigned.length := by
      rw [h.length_assigned, ← h.table_eq]
      exact (List.getElem?_eq_some_iff.1 hrow).1
    obtain ⟨current, hcurrent⟩ := h.exists_current hv
    exact pricesAt hcurrent values option hvalues hmem
  swap {a b} ha hb := by
    have hassigned {v : Nat} (hv : v < p.assigned.length) :
        fetch p.assigned v = .ok p.assigned[v] := fetch_eq_ok_iff.2 (List.getElem?_eq_getElem hv)
    show ∃ delta?, p.swapDelta a b = .ok delta?
    unfold swapDelta
    rw [hassigned ha, hassigned hb, ok_bind]
    cases hx : p.assigned[a] with
    | none => exact ⟨none, rfl⟩
    | some x =>
    dsimp only
    rw [ok_bind]
    cases hy : p.assigned[b] with
    | none => exact ⟨none, rfl⟩
    | some y =>
    obtain ⟨rowA, hrowA, hltA⟩ := h.has a x ((List.getElem?_eq_getElem ha).trans (congrArg some hx))
    obtain ⟨rowB, hrowB, hltB⟩ := h.has b y ((List.getElem?_eq_getElem hb).trans (congrArg some hy))
    dsimp only
    rw [fetch_eq_ok_iff.2 (h.table_eq ▸ hrowA), ok_bind]
    cases rowA[y]? with
    | none => exact ⟨none, rfl⟩
    | some afterA =>
    dsimp only
    rw [fetch_eq_ok_iff.2 (h.table_eq ▸ hrowB), ok_bind]
    cases rowB[x]? with
    | none => exact ⟨none, rfl⟩
    | some afterB =>
    dsimp only
    rw [fetch_eq_ok_iff.2 (List.getElem?_eq_getElem hltA),
      fetch_eq_ok_iff.2 (List.getElem?_eq_getElem hltB)]
    exact ⟨_, rfl⟩

end Penalty

/-! ## Timetables -/

namespace Timetable

variable {α : Type} [Scalar α] {t : Timetable α} {v : Nat}

omit [Scalar α] in
theorem exists_event (hv : v < t.events.length) : ∃ e, t.events[v]? = some e :=
  ⟨_, List.getElem?_eq_getElem hv⟩

/-- The events with a domain are those that exist. -/
theorem lt_of_values {values : List (Placement α)} (h : Model.values t v = .ok values) :
    v < t.events.length := by
  obtain ⟨e, he, -⟩ := bind_eq_ok_iff.1 h
  exact (List.getElem?_eq_some_iff.1 (fetch_eq_ok_iff.1 he)).1

theorem Sized.answers (h : Sized t) : Model.Answers t where
  assignment hv := ⟨_, fetch_eq_ok_iff.2 (List.getElem?_eq_getElem (h.symm ▸ hv))⟩
  values hv := by
    obtain ⟨e, he⟩ := exists_event hv
    exact ⟨_, bind_eq_ok_iff.2 ⟨e, fetch_eq_ok_iff.2 he, rfl⟩⟩
  conflicts hvalues _ := by
    obtain ⟨e, he⟩ := exists_event (lt_of_values hvalues)
    exact exists_conflictsIn _ _ he

theorem Sized.prices (h : Sized t) : Model.Prices t where
  value v values x hvalues _ := by
    have hv := lt_of_values hvalues
    obtain ⟨e, he⟩ := exists_event hv
    obtain ⟨after, hafter⟩ := exists_place x he (h.symm ▸ hv)
    exact ⟨_, bind_eq_ok_iff.2 ⟨after, hafter, rfl⟩⟩
  swap {a b} ha hb := by
    obtain ⟨e, he⟩ := exists_event ha
    obtain ⟨f, hf⟩ := exists_event hb
    obtain ⟨p?, hp⟩ := h.answers.assignment ha
    obtain ⟨q?, hq⟩ := h.answers.assignment hb
    show ∃ delta?, t.swapDelta a b = .ok delta?
    unfold swapDelta
    rw [show fetch t.assigned a = .ok p? from hp, show fetch t.assigned b = .ok q? from hq, ok_bind]
    cases p? with
    | none => exact ⟨none, rfl⟩
    | some p =>
    dsimp only
    rw [ok_bind]
    cases q? with
    | none => exact ⟨none, rfl⟩
    | some q =>
    dsimp only
    rw [fetch_eq_ok_iff.2 he, ok_bind]
    cases e.domain.find? (·.sameSlot q) with
    | none => exact ⟨none, rfl⟩
    | some newA =>
    dsimp only
    rw [fetch_eq_ok_iff.2 hf, ok_bind]
    cases f.domain.find? (·.sameSlot p) with
    | none => exact ⟨none, rfl⟩
    | some newB =>
    -- whatever is looked for in the way of the two events, both exist
    obtain ⟨outA, houtA⟩ := exists_conflictsIn newA ((t.assigned.set a none).set b none) he
    obtain ⟨outB, houtB⟩ := exists_conflictsIn newB
      (((t.assigned.set a none).set b none).set a (some newA)) hf
    dsimp only
    rw [houtA, ok_bind]
    split
    · exact ⟨none, rfl⟩
    rw [houtB, ok_bind]
    split
    · exact ⟨none, rfl⟩
    exact ⟨_, rfl⟩

end Timetable

end LocalSearch
