import LocalSearch.Model.Basic
import LocalSearch.Outline
/-!
# Plain models

A model behind which the optional operations of another one are hidden: it cannot evaluate swaps,
and its detailed diagnostics are the short ones.
-/

namespace LocalSearch

/-- A model reduced to the required operations. -/
structure Plain (M : Type) where
  inner : M

instance {M V α : Type} [Model M V α] : Model (Plain M) V α where
  variableCount m := Model.variableCount m.inner
  values m := Model.values m.inner
  assignment m := Model.assignment m.inner
  assign m v x := Plain.mk <$> Model.assign m.inner v x
  spoiled m := ⟨Model.spoiled m.inner⟩
  unassign m v := Plain.mk <$> Model.unassign m.inner v
  delta m := Model.delta m.inner
  conflicts m := Model.conflicts m.inner
  unassignedCount m := Model.unassignedCount m.inner
  totalValue m := Model.totalValue m.inner
  saveBest m := ⟨Model.saveBest m.inner⟩
  restoreBest m := ⟨Model.restoreBest m.inner⟩
  clearBest m := ⟨Model.clearBest m.inner⟩
  bestUnassignedCount m := Model.bestUnassignedCount m.inner
  info m := Model.info m.inner
  same := Model.same M
  outline m := Outline.tuple "BasicModel" [Model.outline m.inner]
  outlineValue := Model.outlineValue M

end LocalSearch
