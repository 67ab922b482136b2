import Mathlib
import LocalSearch.Proofs.Model.Optimum
import LocalSearch.Proofs.Selection.Kinds
/-!
# The effect of a proposed change

A strategy may go back to the best state or unassign variables after it has looked at a candidate.
The effect of the change it proposes is nevertheless the one on the solution as the call leaves it.

* `ChangeMove.Evaluated`: a move gives a variable a value, with the effect that the model computes.
* `AnyStrategy.evaluated_of_select`: every proposed change is evaluated on the model that is left.
* `Timetable.commit_of_evaluated`, `Penalty.commit_of_evaluated`: what committing it does to the
  total value.
-/

namespace LocalSearch

variable {M V α : Type} [Model M V α]

/-- The move gives a variable a value, and its effect is the one that the model computes. -/
def ChangeMove.Evaluated (model : M) (m : ChangeMove V α) : Prop :=
  ∃ value, m.target = some value ∧ Model.delta model m.var value = .ok m.delta

/-- Generators and construction evaluate the changes they propose. -/
theorem Proposal.Supplied.evaluated {model : M} {m : ChangeMove V α}
    (h : Proposal.Supplied Candidate.Fits model (.move (.change m))) : m.Evaluated model := by
  rcases h with h | h
  · cases h with
    | change _ _ _ _ hdelta => exact ⟨_, rfl, hdelta⟩
  · cases h with
    | fill _ _ _ hdelta => exact ⟨_, rfl, hdelta⟩

/-- A proposed change is evaluated on the solution as the selection leaves it. -/
theorem AnyStrategy.evaluated_of_select [Scalar α] {t t' : AnyStrategy (Generator Empty α) α}
    {w w' : World M α} {m : ChangeMove V α}
    (h : Strategy.select (t, w) = .ok (some (.move (.change m))) (t', w')) :
    m.Evaluated w'.solution.model := by
  have hselects := AnyStrategy.selects (I := fun _ : Solution M α => True)
    (G := Generator Empty α) Generator.proposes_fits (fun _ _ => trivial) fun _ _ _ _ _ => trivial
  exact ((Attempt.Ensures.of_ok hselects trivial h).2 _ rfl).evaluated

/-- Committing a move that gives a variable a value is assigning it. -/
theorem ChangeMove.commit_of_assign {model model' : M} {m : ChangeMove V α} {value : V}
    (htarget : m.target = some value) (h : Model.assign model m.var value = .ok model') :
    m.commit model = .ok () model' := by
  unfold commit
  simp only [htarget]
  exact Model.put_of_ok h

/-! ## Timetables -/

/-- Committing an evaluated change succeeds, and its effect is the difference of the total
values. -/
theorem Timetable.commit_of_evaluated [Scalar α] {t : Timetable α} {m : ChangeMove (Placement α) α}
    (h : m.Evaluated t) :
    ∃ t' : Timetable α, m.commit t = .ok () t' ∧
      m.delta = t'.totalOf t'.assigned - t.totalOf t.assigned := by
  obtain ⟨p, htarget, hdelta⟩ := h
  obtain ⟨assigned, hplace, hdelta⟩ := bind_eq_ok_iff.1 hdelta
  have hassign : Model.assign t m.var p = .ok { t with assigned } :=
    bind_eq_ok_iff.2 ⟨assigned, hplace, rfl⟩
  exact ⟨{ t with assigned }, ChangeMove.commit_of_assign htarget hassign,
    (pure_eq_ok_iff.1 hdelta).symm⟩

/-! ## Independent penalties -/

section

variable {K : Type} [Field K] [LinearOrder K] [Scalar.Functions K]

/-- Committing an evaluated change succeeds, and adds its effect to the total value. -/
theorem Penalty.commit_of_evaluated {p : Penalty K} {m : ChangeMove Nat K} (h : m.Evaluated p) :
    ∃ p' : Penalty K, m.commit p = .ok () p' ∧
      p'.totalValue = (fun total => total + m.delta) <$> p.totalValue := by
  obtain ⟨option, htarget, hdelta⟩ := h
  obtain ⟨row, hrow, hdelta⟩ := bind_eq_ok_iff.1 hdelta
  obtain ⟨after, hafter, hdelta⟩ := bind_eq_ok_iff.1 hdelta
  obtain ⟨before, hbefore, hdelta⟩ := bind_eq_ok_iff.1 hdelta
  obtain ⟨current?, hcurrent, -⟩ := bind_eq_ok_iff.1 hbefore
  obtain ⟨hlt, -⟩ := List.getElem?_eq_some_iff.1 (fetch_eq_ok_iff.1 hcurrent)
  -- only the entry of the variable changes, and it is in bounds because its old penalty was looked
  -- up
  let p' : Penalty K :=
    { p with assigned := p.assigned.set m.var (some option), assignments := p.assignments + 1 }
  have hassign : Model.assign p m.var option = .ok p' :=
    bind_eq_ok_iff.2 ⟨_, store_eq_ok_iff.2 ⟨hlt, rfl⟩, rfl⟩
  refine ⟨p', ChangeMove.commit_of_assign htarget hassign, ?_⟩
  have hnow : p'.current m.var = .ok after := by
    refine bind_eq_ok_iff.2 ⟨some option, fetch_eq_ok_iff.2 (List.getElem?_set_self hlt), ?_⟩
    exact bind_eq_ok_iff.2 ⟨row, hrow, hafter⟩
  have hrest (i : Nat) (hi : i ≠ m.var) : p'.current i = p.current i := by
    unfold current
    rw [fetch_set_ne hi]
    rfl
  have hmem : m.var ∈ List.range p.assigned.length := List.mem_range.2 hlt
  rw [totalValue_eq, totalValue_eq, List.length_set,
    sum_mapM_of_ne hbefore hnow hrest List.nodup_range, if_pos hmem, ← pure_eq_ok_iff.1 hdelta]

end

/-! ## Every selection -/

/-- The change of a variable that a selection has proposed. -/
def selectedChange? {ε σ : Type} :
    EStateM.Result ε σ (Option (Proposal V α)) → Option (ChangeMove V α)
  | .ok (some (.move (.change m))) _ => some m
  | _ => none

omit [Model M V α] in
theorem of_selectedChange?_eq_some {ε σ : Type} {r : EStateM.Result ε σ (Option (Proposal V α))}
    {m : ChangeMove V α} (h : selectedChange? r = some m) :
    ∃ s, r = .ok (some (.move (.change m))) s := by
  unfold selectedChange? at h
  split at h
  · cases h
    exact ⟨_, rfl⟩
  · cases h

/-- Whatever a strategy does before it proposes to give a variable a value, the effect of the change
is the one on the solution that is left. Committing it changes the total value by exactly that: on a
timetable the effect is the difference of the total values as the program computes it, and on
independent penalties it adds up in exact arithmetic. -/
theorem AnyStrategy.select_effect [Scalar α] {K : Type} [Field K] [LinearOrder K]
    [Scalar.Functions K] :
    (∀ (t t' : AnyStrategy (Generator Empty α) α) (w w' : World M α) (m : ChangeMove V α),
      Strategy.select (t, w) = .ok (some (.move (.change m))) (t', w') →
        ∃ value, m.target = some value ∧
          Model.delta w'.solution.model m.var value = .ok m.delta) ∧
    (∀ (t t' : AnyStrategy (Generator Empty α) α) (w w' : World (Timetable α) α)
      (m : ChangeMove (Placement α) α),
      Strategy.select (t, w) = .ok (some (.move (.change m))) (t', w') →
        ∃ after, m.commit w'.solution.model = .ok () after ∧
          m.delta = after.totalOf after.assigned -
            w'.solution.model.totalOf w'.solution.model.assigned) ∧
    ∀ (t t' : AnyStrategy (Generator Empty K) K) (w w' : World (Penalty K) K)
      (m : ChangeMove Nat K),
      Strategy.select (t, w) = .ok (some (.move (.change m))) (t', w') →
        ∃ after, m.commit w'.solution.model = .ok () after ∧
          after.totalValue = (fun total => total + m.delta) <$> w'.solution.model.totalValue := by
  refine ⟨fun t t' w w' m h => ?_, fun t t' w w' m h => ?_, fun t t' w w' m h => ?_⟩
  · exact evaluated_of_select h
  · exact Timetable.commit_of_evaluated (evaluated_of_select h)
  · exact Penalty.commit_of_evaluated (evaluated_of_select h)

/-- Hill climbing finds the cheaper option of a variable. -/
theorem AnyStrategy.select_effect_cheaper :
    ∃ (t t' : AnyStrategy (Generator Empty ℚ) ℚ) (w w' : World (Penalty ℚ) ℚ)
      (m : ChangeMove Nat ℚ),
      Strategy.select (t, w) = .ok (some (.move (.change m))) (t', w') ∧
        ∃ after, m.commit w'.solution.model = .ok () after ∧
          after.totalValue = (fun total => total + m.delta) <$> w'.solution.model.totalValue := by
  let t : AnyStrategy (Generator Empty ℚ) ℚ := .basic (.hillClimbing (.of
    ⟨[.of "change" (.basic (.change false)) 0], .fresh 1, {}, false⟩ 10))
  let w : World (Penalty ℚ) ℚ :=
    .ofSolution (.ofModel ⟨[[0, 1], [0]], [some 1, some 0], none, 0⟩) (.standard 0) none
  let r := (Strategy.select : Act _ _ ℚ (Option (Proposal Nat ℚ))) (t, w)
  have hdelta : (selectedChange? r).map ChangeMove.delta = some (-1) := by decide +kernel
  obtain ⟨m, hm, -⟩ := Option.map_eq_some_iff.1 hdelta
  obtain ⟨s, hselect⟩ := of_selectedChange?_eq_some hm
  have heffect := (select_effect (M := Penalty ℚ) (α := ℚ) (K := ℚ)).2.2
  exact ⟨t, s.1, w, s.2, m, hselect, heffect t s.1 w s.2 m hselect⟩

end LocalSearch
