import LocalSearch.Proofs.Model.Commit
/-!
# Commits that give a result

Reading or writing a variable that does not exist is a fault, and so is pricing a value that the
variable cannot have. Within these bounds no commit fails.

* `Model.Serves`: a property of models under which assigning, unassigning and pricing succeed, and
  which assigning and unassigning keep.
* `SwapMove.commit_returns`, `Move.commit_returns`, `LazyChange.commit_returns`: no commit on such a
  model fails.
* `LazyChange.commit_measured`: what a lazy change measures, and that the measure decides.
* `LazyChange.commit_atomic`: a lazy change is made as a whole or not at all.
-/

namespace LocalSearch

open Attempt
open Model.Tables (assigned kept clash)

variable {M V α : Type} [Model M V α] [Model.Tabular M]

/-- Under `J` every variable can lose its value and can get any value that `D` admits for it, the
total value is defined, and all of this stays so. -/
structure Model.Serves (J : M → Prop) (D : Nat → V → Prop) : Prop where
  assign {m : M} {v : Nat} {x : V} : J m → v < (assigned m).length → D v x →
    ∃ m', Model.assign m v x = .ok m' ∧ J m'
  unassign {m : M} {v : Nat} : J m → v < (assigned m).length →
    ∃ m', Model.unassign m v = .ok m' ∧ J m'
  total {m : M} : J m → ∃ total, Model.totalValue m = .ok total
  admits {m : M} {v : Nat} {x : V} : J m → (assigned m)[v]? = some (some x) → D v x

namespace Model

variable {m m' : M} {v : Nat} {x : V}

theorem length_of_assign (h : Model.assign m v x = .ok m') :
    (assigned m').length = (assigned m).length := by
  obtain ⟨-, out, -, hbecomes⟩ := Tabular.assign_eq_ok h
  rw [hbecomes.assigned, List.length_set, Table.length_evict]

theorem length_of_unassign (h : Model.unassign m v = .ok m') :
    (assigned m').length = (assigned m).length := by
  rw [(Tabular.unassign_eq_ok h).2.assigned, List.length_set]

/-- A variable that exists can be read. -/
theorem exists_assignment (hv : v < (assigned m).length) :
    ∃ x?, (assigned m)[v]? = some x? ∧ Model.assignment m v = .ok x? := by
  have hget := List.getElem?_eq_getElem hv
  exact ⟨_, hget, (Tabular.assignment_eq m v).trans (fetch_eq_ok_iff.2 hget)⟩

end Model

/-! ## No commit fails -/

section

variable {J : M → Prop} {D : Nat → V → Prop} {n : Nat}

/-- A model that serves, with a number of variables. -/
def Model.Ready (J : M → Prop) (n : Nat) (m : M) : Prop :=
  J m ∧ (assigned m).length = n

theorem Model.Serves.ensures_put (hJ : Model.Serves J D) {v : Nat} {x : V} (hv : v < n)
    (hx : D v x) : Ensures (Model.Ready J n) (Model.put v x)
      (fun _ => Model.Ready J n) (fun _ => False) := by
  refine Model.ensures_put_of_ok fun m ⟨hm, hlength⟩ => ?_
  obtain ⟨m', hassign, hm'⟩ := hJ.assign hm (hlength ▸ hv) hx
  exact ⟨m', hassign, hm', (Model.length_of_assign hassign).trans hlength⟩

theorem Model.Serves.ensures_unassign (hJ : Model.Serves J D) {v : Nat} (hv : v < n) :
    Ensures (Model.Ready J n) (Attempt.update (Model.unassign · v))
      (fun _ => Model.Ready J n) (fun _ => False) := by
  refine ensures_update_of_ok fun m ⟨hm, hlength⟩ => ?_
  obtain ⟨m', hunassign, hm'⟩ := hJ.unassign hm (hlength ▸ hv)
  exact ⟨m', hunassign, hm', (Model.length_of_unassign hunassign).trans hlength⟩

/-- The variables of a move exist, and it gives them values that they may have. -/
def Move.Within (n : Nat) (D : Nat → V → Prop) : Move V α → Prop
  | .change m => m.var < n ∧ ∀ x, m.target = some x → D m.var x
  | .swap m => m.first < n ∧ m.second < n ∧ ∀ x, D m.first x ↔ D m.second x

/-- A swap does not fail if either variable may have the value of the other one. -/
theorem SwapMove.commit_returns (hJ : Model.Serves J D) {m : M} {s : SwapMove α}
    (hm : Model.Ready J n m) (hfirst : s.first < n) (hsecond : s.second < n)
    (hvalues : ∀ x y, (assigned m)[s.first]? = some (some x) →
      (assigned m)[s.second]? = some (some y) → D s.first y ∧ D s.second x) :
    Ensures (· = m) (s.commit : Attempt M Unit) (fun _ => Model.Ready J n) (fun _ => False) := by
  have hkeep : ∀ m', m' = m → Model.Ready J n m' := fun _ h => h ▸ hm
  unfold SwapMove.commit
  -- both variables exist, so they can be read
  obtain ⟨a?, ha, hfetch⟩ := Model.exists_assignment (hm.2 ▸ hfirst)
  obtain ⟨b?, hb, hfetch'⟩ := Model.exists_assignment (hm.2 ▸ hsecond)
  refine ensures_get_bind_at (ensures_lift_bind_of_ok hfetch (ensures_lift_bind_of_ok hfetch' ?_))
  cases a? with
  | none => exact ensures_pure hkeep
  | some a =>
    cases b? with
    | none => exact ensures_pure hkeep
    | some b =>
      obtain ⟨hdb, hda⟩ := hvalues a b ha hb
      refine Ensures.bind ((hJ.ensures_unassign hfirst).mono_pre hkeep) fun _ => ?_
      refine Ensures.bind (hJ.ensures_unassign hsecond) fun _ => ?_
      refine Ensures.bind (hJ.ensures_put hfirst hdb) fun _ => ?_
      exact hJ.ensures_put hsecond hda

theorem Move.commit_returns (hJ : Model.Serves J D) {m : Move V α} (hm : m.Within n D) :
    Ensures (Model.Ready J n) (m.commit : Attempt M Unit) (fun _ => Model.Ready J n)
      (fun _ => False) := by
  cases m with
  | change m =>
    show Ensures _ m.commit _ _
    obtain ⟨v, target, delta⟩ := m
    obtain ⟨hv, hx⟩ := hm
    cases target with
    | none => exact hJ.ensures_unassign hv
    | some x => exact hJ.ensures_put hv (hx x rfl)
  | swap m =>
    show Ensures _ m.commit _ _
    obtain ⟨hfirst, hsecond, hsame⟩ := hm
    refine ensures_of_at fun model hmodel => ?_
    refine m.commit_returns hJ hmodel hfirst hsecond fun x y hx hy => ?_
    -- what a variable holds it may hold, and then the other one may hold it as well
    exact ⟨(hsame y).2 (hJ.admits hmodel.1 hy), (hsame x).1 (hJ.admits hmodel.1 hx)⟩

/-- The displaced values can be read. -/
theorem LazyChange.exists_displaced (hJ : Model.Serves J D) {m : M} {c : LazyChange V} (hm : J m)
    (hv : c.var < (assigned m).length) (hx : D c.var c.value) :
    ∃ displaced, c.displaced m = .ok displaced := by
  obtain ⟨m', hassign, -⟩ := hJ.assign hm hv hx
  obtain ⟨-, out, hout, -⟩ := Model.Tabular.assign_eq_ok hassign
  have hread : ∀ i ∈ out.filter (· ≠ c.var), ∃ value?,
      (do return (← Model.assignment m i).map (i, ·) : Except Fault _) = .ok value? := by
    intro i hi
    -- what is in conflict has a value
    obtain ⟨-, y, hy, -⟩ := (Model.Tabular.mem_conflicts hout i).1 (List.mem_filter.1 hi).1
    exact ⟨_, bind_eq_ok_iff.2
      ⟨_, (Model.Tabular.assignment_eq m i).trans (fetch_eq_ok_iff.2 hy), rfl⟩⟩
  obtain ⟨values, hvalues⟩ := exists_mapM_eq_ok hread
  exact ⟨_, bind_eq_ok_iff.2 ⟨out, hout, bind_eq_ok_iff.2 ⟨values, hvalues, rfl⟩⟩⟩

variable [Scalar α]

theorem LazyChange.commit_returns (hJ : Model.Serves J D) {c : LazyChange V} (hv : c.var < n)
    (hx : D c.var c.value) (accept : M → α → α → Bool) :
    Ensures (Model.Ready J n) (c.commit accept) (fun _ => Model.Ready J n) (fun _ => False) := by
  unfold LazyChange.commit
  refine ensures_of_at fun m hm => ?_
  have hkeep : ∀ m', m' = m → Model.Ready J n m' := fun m' h => h ▸ hm
  have hlt : c.var < (assigned m).length := hm.2 ▸ hv
  obtain ⟨previous, hprevious, hread⟩ := Model.exists_assignment hlt
  obtain ⟨displaced, hdisplaced⟩ := c.exists_displaced hJ hm.1 hlt hx
  refine ensures_get_bind_at (ensures_lift_bind_of_ok hread ?_)
  refine ensures_get_bind_at (ensures_lift_bind_of_ok hdisplaced ?_)
  refine Ensures.bind (Q := fun _ => Model.Ready J n) ?_ fun (total, delta) => ?_
  · unfold LazyChange.apply
    obtain ⟨before, hbefore⟩ := hJ.total hm.1
    refine ensures_get_bind_at (ensures_lift_bind_of_ok hbefore ?_)
    refine Ensures.bind ((hJ.ensures_put hv hx).mono_pre hkeep) fun _ => ?_
    refine ensures_get_bind fun m' hm' => ?_
    obtain ⟨after, hafter⟩ := hJ.total hm'.1
    exact ensures_lift_bind_of_ok hafter (ensures_pure fun _ h => h ▸ hm')
  refine ensures_get_bind fun m' hm' => ?_
  have hkeep' : ∀ m'', m'' = m' → Model.Ready J n m'' := fun _ h => h ▸ hm'
  split
  · exact ensures_pure hkeep'
  refine Ensures.bind (Q := fun _ => Model.Ready J n) ?_ fun _ => ensures_pure fun _ h => h
  unfold LazyChange.undo
  refine Ensures.bind ((hJ.ensures_unassign hv).mono_pre hkeep') fun _ => ?_
  refine Ensures.bind (ensures_forIn displaced fun (i, y) hi => ?_) fun _ => ?_
  · -- a displaced value is one that its variable had before
    obtain ⟨m₁, hassign, -⟩ := hJ.assign hm.1 hlt hx
    obtain ⟨-, out, hout, -⟩ := Model.Tabular.assign_eq_ok hassign
    obtain ⟨-, -, hy⟩ := (c.mem_displaced hout hdisplaced i y).1 hi
    have hi : i < n := hm.2 ▸ (List.getElem?_eq_some_iff.1 hy).1
    exact Ensures.bind (hJ.ensures_put hi (hJ.admits hm.1 hy)) fun _ =>
      ensures_pure fun _ h => h
  cases previous with
  | none => exact ensures_pure fun _ h => h
  | some y => exact hJ.ensures_put hv (hJ.admits hm.1 hprevious)

end

/-! ## Lazy changes -/

section

variable [Scalar α] {m : M}

omit [Model.Tabular M] in
/-- A lazy change measures by how much it changes the total value, and the predicate decides on that
measure and the changed model. -/
theorem LazyChange.commit_measured (c : LazyChange V) (accept : M → α → α → Bool) :
    Ensures (· = m) (c.commit accept)
      (fun r _ => ∃ (m₁ : M) (before after : α), Model.assign m c.var c.value = .ok m₁ ∧
        Model.totalValue m = .ok before ∧ Model.totalValue m₁ = .ok after ∧
        r = if accept m₁ after (after - before) then .applied (after - before)
          else .rejected (after - before))
      (fun _ => True) := by
  unfold LazyChange.commit
  refine ensures_get_bind_at (ensures_lift_bind (fun _ _ => trivial) fun previous _ => ?_)
  refine ensures_get_bind_at (ensures_lift_bind (fun _ _ => trivial) fun displaced _ => ?_)
  refine Ensures.bind (Q := fun r m₁ => ∃ before, Model.assign m c.var c.value = .ok m₁ ∧
    Model.totalValue m = .ok before ∧ Model.totalValue m₁ = .ok r.1 ∧ r.2 = r.1 - before) ?_
    fun (total, delta) => ?_
  · unfold LazyChange.apply
    refine ensures_get_bind_at (ensures_lift_bind (fun _ _ => trivial) fun before hbefore => ?_)
    refine Ensures.bind (Model.ensures_put_at trivial) fun _ => ?_
    refine ensures_get_bind fun m₁ hassign => ?_
    refine ensures_lift_bind (fun _ _ => trivial) fun after hafter => ?_
    exact ensures_pure fun _ h => ⟨before, h ▸ hassign, hbefore, h ▸ hafter, rfl⟩
  refine ensures_get_bind fun m₁ ⟨before, hassign, hbefore, hafter, hdelta⟩ => ?_
  dsimp only at hafter hdelta
  subst hdelta
  split
  · rename_i haccept
    exact ensures_pure fun _ _ =>
      ⟨m₁, before, total, hassign, hbefore, hafter, (if_pos haccept).symm⟩
  · rename_i haccept
    -- whatever taking it back does to the model, the answer is given already
    refine Ensures.bind (Q := fun _ _ => True) (ensures_of (fun _ _ _ _ _ => trivial)
      fun _ _ _ _ _ => trivial) fun _ => ?_
    exact ensures_pure fun _ _ =>
      ⟨m₁, before, total, hassign, hbefore, hafter, (if_neg haccept).symm⟩

/-- A lazy change is made as a whole or not at all, and either way it says by how much it changed
the total value while it was made. -/
theorem LazyChange.commit_atomic {J : M → Prop} {D : Nat → V → Prop} (hJ : Model.Serves J D)
    (hm : J m) (hsound : Model.Sound m) {c : LazyChange V} (hv : c.var < (assigned m).length)
    (hx : D c.var c.value) (accept : M → α → α → Bool) :
    ∃ (m₁ : M) (before after : α), Model.assign m c.var c.value = .ok m₁ ∧
      Model.totalValue m = .ok before ∧ Model.totalValue m₁ = .ok after ∧
      if accept m₁ after (after - before) then c.commit accept m = .ok (.applied (after - before)) m₁
      else ∃ m', c.commit accept m = .ok (.rejected (after - before)) m' ∧
        Model.Becomes m (assigned m) m' := by
  have hready : ∀ m', m' = m → Model.Ready J (assigned m).length m' :=
    fun m' h => by rw [h]; exact ⟨hm, rfl⟩
  have hreturns := (c.commit_returns hJ hv hx accept).mono_pre hready
  have hall := (hreturns.and (c.commit_measured accept)).and (c.commit_becomes hsound accept)
  obtain ⟨r, m', hrun, ⟨-, m₁, before, after, hassign, hbefore, hafter, hr⟩, hbecomes⟩ :=
    (hall.mono (fun _ h => h) (fun _ _ h => h) fun _ h => h.1.1).exists_ok rfl
  refine ⟨m₁, before, after, hassign, hbefore, hafter, ?_⟩
  split
  · rename_i haccept
    rw [if_pos haccept] at hr
    subst hr
    cases hassign.symm.trans hbecomes
    exact hrun
  · rename_i haccept
    rw [if_neg haccept] at hr
    subst hr
    exact ⟨m', hrun, hbecomes⟩

end

end LocalSearch
