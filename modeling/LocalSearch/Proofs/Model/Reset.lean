import LocalSearch.Proofs.Model.Total
/-!
# Taking every value away and going back

Two operations set a whole assignment at once: unassigning one variable after the other, and going
back to the assignment that is kept as the best.

* `Table.blank`: nothing assigned.
* `Model.Fitting`: the assignments of a model have an entry for every variable.
* `Model.Resettable`: a model on tables that can take every value away.
* `Model.becomes_restoreBest`, `Model.unassign_range_ensures`: what the two operations leave.
-/

namespace LocalSearch

open Attempt
open Model.Tables (assigned kept clash)

/-- Nothing assigned to any of `n` variables. -/
def Table.blank {V : Type} (n : Nat) : Table V :=
  List.replicate n none

variable {M V α : Type} [Model M V α]

/-- The assignments have an entry for every variable. Constructors see to it, and no operation
changes the length of an assignment. -/
structure Model.Fitting [Model.Tables M V] (m : M) : Prop where
  length_assigned : (assigned m).length = Model.variableCount m
  length_kept : ∀ k, kept m = some k → k.length = Model.variableCount m

/-- The assignment that going back to the best state brings: the one that is kept, or nothing. -/
def Model.back [Model.Tables M V] (m : M) : Table V :=
  (kept m).getD (Table.blank (Model.variableCount m))

/-- A model on tables that can take every value away. -/
class Model.Resettable (M : Type) {V α : outParam Type} [Model M V α] extends
    Model.Tabular M where
  exists_unassign {m : M} {v : Nat} : v < (assigned m).length →
    ∃ m', Model.unassign m v = .ok m'
  variableCount_unassign {m m' : M} {v : Nat} : Model.unassign m v = .ok m' →
    Model.variableCount m' = Model.variableCount m
  variableCount_restoreBest {m : M} : (Model.back m).length = Model.variableCount m →
    Model.variableCount (Model.restoreBest m) = Model.variableCount m
  restoreBest_blank {m : M} : kept m = none →
    Becomes m (Table.blank (Model.variableCount m)) (Model.restoreBest m)

instance Penalty.resettable {α : Type} [Scalar α] : Model.Resettable (Penalty α) where
  exists_unassign hv := ⟨_, bind_eq_ok_iff.2 ⟨_, store_eq_ok_iff.2 ⟨hv, rfl⟩, rfl⟩⟩
  variableCount_unassign h := Model.length_of_unassign h
  variableCount_restoreBest {p} h := by
    rw [← h]
    show (p.best.getD _).length = (p.best.getD _).length
    cases p.best with
    | none => simp [Table.blank, Model.variableCount]
    | some k => rfl
  restoreBest_blank {p} h := by
    refine ⟨?_, rfl, rfl⟩
    show p.best.getD _ = _
    rw [show p.best = none from h]
    exact List.map_const'

/-- On independent penalties only the kept assignment could have another length. -/
theorem Penalty.fitting_of_kept {α : Type} [Scalar α] {p : Penalty α}
    (h : ∀ k, p.best = some k → k.length = p.assigned.length) : Model.Fitting p :=
  ⟨rfl, h⟩

instance Timetable.resettable {α : Type} [Scalar α] : Model.Resettable (Timetable α) where
  exists_unassign hv := ⟨_, bind_eq_ok_iff.2 ⟨_, store_eq_ok_iff.2 ⟨hv, rfl⟩, rfl⟩⟩
  variableCount_unassign h := by
    obtain ⟨_, -, h⟩ := bind_eq_ok_iff.1 h
    cases h
    rfl
  variableCount_restoreBest _ := rfl
  restoreBest_blank {t} h := by
    refine ⟨?_, rfl, rfl⟩
    show t.best.getD _ = _
    rw [show t.best = none from h]
    exact List.map_const'

namespace Model

variable [Model.Resettable M] {m m' : M}

theorem Fitting.length_back (h : Fitting m) : (back m).length = Model.variableCount m := by
  unfold back
  cases hk : kept m with
  | none => exact List.length_replicate
  | some k => exact h.length_kept k hk

/-- Going back changes the assignment to the one that is kept, and nothing else. -/
theorem becomes_restoreBest (m : M) : Becomes m (back m) (Model.restoreBest m) := by
  unfold back
  cases hk : kept m with
  | none => exact Resettable.restoreBest_blank hk
  | some k => exact Tabular.restoreBest_becomes hk

/-- While the variables of a list have yet to lose their values, all others have lost them. -/
structure Emptied (m : M) (rest : List Nat) (m' : M) : Prop where
  becomes : Becomes m (assigned m') m'
  variableCount_eq : Model.variableCount m' = Model.variableCount m
  length_eq : (assigned m').length = Model.variableCount m
  rest_lt : ∀ v ∈ rest, v < Model.variableCount m
  empty : ∀ v < Model.variableCount m, v ∉ rest → (assigned m')[v]? = some none

theorem Emptied.step {v : Nat} {rest : List Nat} {m'' : M} (h : Emptied m (v :: rest) m')
    (hunassign : Model.unassign m' v = .ok m'') : Emptied m rest m'' := by
  have hbecomes := (Tabular.unassign_eq_ok hunassign).2
  refine ⟨h.becomes.trans (becomes_unassign hunassign),
    (Resettable.variableCount_unassign hunassign).trans h.variableCount_eq,
    (length_of_unassign hunassign).trans h.length_eq,
    fun i hi => h.rest_lt i (List.mem_cons_of_mem v hi), fun i hi hmem => ?_⟩
  rw [hbecomes.assigned]
  by_cases hiv : v = i
  · subst hiv
    exact List.getElem?_set_self (h.length_eq ▸ hi)
  · rw [List.getElem?_set_ne hiv]
    exact h.empty i hi (by simp [hmem, Ne.symm hiv])

/-- When no variable is left, nothing is assigned. -/
theorem Emptied.finish (h : Emptied m [] m') : Becomes m (Table.blank (Model.variableCount m)) m' := by
  have hblank : assigned m' = Table.blank (Model.variableCount m) := by
    refine List.eq_replicate_iff.2 ⟨h.length_eq, fun x hx => ?_⟩
    obtain ⟨v, hv⟩ := List.mem_iff_getElem?.1 hx
    have hlt : v < Model.variableCount m := h.length_eq ▸ (List.getElem?_eq_some_iff.1 hv).1
    rw [h.empty v hlt List.not_mem_nil] at hv
    exact (Option.some.inj hv).symm
  rw [← hblank]
  exact h.becomes

/-- Unassigning one variable after the other does not fail, and leaves nothing assigned. -/
theorem unassign_range_ensures (hm : (assigned m).length = Model.variableCount m) :
    Ensures (· = m)
      ((List.range (Model.variableCount m)).forM fun v => Attempt.update (Model.unassign · v))
      (fun _ m' => Becomes m (Table.blank (Model.variableCount m)) m' ∧
        Model.variableCount m' = Model.variableCount m) (fun _ => False) := by
  have hstart : ∀ m', m' = m → Emptied m (List.range (Model.variableCount m)) m' := by
    rintro _ rfl
    refine ⟨⟨rfl, rfl, rfl⟩, rfl, hm, fun v hv => List.mem_range.1 hv, fun v hv hmem => ?_⟩
    exact absurd (List.mem_range.2 hv) hmem
  refine (ensures_forM_rest (fun v rest => ensures_update_of_ok fun m' h => ?_) _).mono hstart
    (fun _ m' h => ⟨h.finish, h.variableCount_eq⟩) fun _ h => h
  obtain ⟨m'', hunassign⟩ := Resettable.exists_unassign
    (h.length_eq ▸ h.rest_lt v List.mem_cons_self : v < (assigned m').length)
  exact ⟨m'', hunassign, h.step hunassign⟩

end Model

end LocalSearch
