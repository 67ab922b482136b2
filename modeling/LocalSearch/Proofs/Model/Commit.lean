import LocalSearch.Proofs.Attempt
import LocalSearch.Proofs.Model.Tabular
import LocalSearch.Proofs.Selection.Construction
import LocalSearch.Strategy.Basic
/-!
# What commits do to a model

* `Proposal.commit_ensures`: a commit keeps what assigning and unassigning keep, however it ends.
* `SwapMove.commit_becomes`: an evaluated swap exchanges the two values and nothing else.
* `LazyChange.commit_becomes`: a lazy change that is taken back leaves the assignment as it was.
* `Proposal.commit_complete`: what a strategy proposes on a complete assignment leaves it complete.
-/

namespace LocalSearch

open Attempt

variable {M V α : Type} [Model M V α]

/-! ## What every commit keeps -/

/-- A property of models that survives assigning and unassigning, with one that holds of what is
left when one of these fails. -/
structure Model.KeptOr (J E : M → Prop) : Prop where
  assign {m m' : M} {v : Nat} {x : V} : J m → Model.assign m v x = .ok m' → J m'
  unassign {m m' : M} {v : Nat} : J m → Model.unassign m v = .ok m' → J m'
  failed {m : M} : J m → E m
  spoiled {m : M} : J m → E (Model.spoiled m)

/-- A property of models that survives assigning and unassigning, also when these fail. -/
abbrev Model.Invariant (J : M → Prop) : Prop :=
  Model.KeptOr J J

section

variable {J E : M → Prop}

theorem Model.KeptOr.ensures_put (hJ : Model.KeptOr J E) (v : Nat) (x : V) :
    Ensures J (Model.put v x) (fun _ => J) E :=
  Model.ensures_put (fun _ _ hm h => hJ.assign hm h) fun _ h => hJ.spoiled h

theorem Model.KeptOr.ensures_unassign (hJ : Model.KeptOr J E) (v : Nat) :
    Ensures J (Attempt.update (Model.unassign · v)) (fun _ => J) E :=
  ensures_update (fun _ _ hm h => hJ.unassign hm h) fun _ h => hJ.failed h

theorem Move.commit_ensures (hJ : Model.KeptOr J E) (m : Move V α) :
    Ensures J (m.commit : Attempt M Unit) (fun _ => J) E := by
  cases m with
  | change m =>
    show Ensures J m.commit _ E
    obtain ⟨v, target, delta⟩ := m
    cases target with
    | none => exact hJ.ensures_unassign v
    | some x => exact hJ.ensures_put v x
  | swap m =>
    show Ensures J m.commit _ E
    unfold SwapMove.commit
    refine ensures_get_bind fun model hmodel => ?_
    have hkeep : ∀ m, m = model → J m := fun m h => h ▸ hmodel
    have hfailed : ∀ m, m = model → E m := fun m h => hJ.failed (hkeep m h)
    refine ensures_lift_bind hfailed fun a? _ => ensures_lift_bind hfailed fun b? _ => ?_
    cases a? with
    | none => exact ensures_pure hkeep
    | some a =>
      cases b? with
      | none => exact ensures_pure hkeep
      | some b =>
        refine Ensures.bind ((hJ.ensures_unassign m.first).mono_pre hkeep) fun _ => ?_
        refine Ensures.bind (hJ.ensures_unassign m.second) fun _ => ?_
        refine Ensures.bind (hJ.ensures_put m.first b) fun _ => ?_
        exact hJ.ensures_put m.second a

variable [Scalar α]

theorem LazyChange.commit_ensures (hJ : Model.KeptOr J E) (c : LazyChange V)
    (accept : M → α → α → Bool) : Ensures J (c.commit accept) (fun _ => J) E := by
  have happly : Ensures J (c.apply : Attempt M (α × α)) (fun _ => J) E := by
    unfold LazyChange.apply
    refine ensures_get_bind fun model hmodel => ?_
    refine ensures_lift_bind (fun m h => h ▸ hJ.failed hmodel) fun before _ => ?_
    refine Ensures.bind ((hJ.ensures_put c.var c.value).mono_pre fun m h => h ▸ hmodel)
      fun _ => ?_
    refine ensures_get_bind fun model hmodel => ?_
    refine ensures_lift_bind (fun m h => h ▸ hJ.failed hmodel) fun after _ => ?_
    exact ensures_pure fun m h => h ▸ hmodel
  have hundo (previous : Option V) (displaced : List (Nat × V)) :
      Ensures J (c.undo previous displaced) (fun _ => J) E := by
    unfold LazyChange.undo
    refine Ensures.bind (hJ.ensures_unassign c.var) fun _ => ?_
    refine Ensures.bind (ensures_forIn _ fun (other, value) _ => ?_) fun _ => ?_
    · exact Ensures.bind (hJ.ensures_put other value) fun _ => ensures_pure fun _ h => h
    · cases previous with
      | none => exact ensures_pure fun _ h => h
      | some x => exact hJ.ensures_put c.var x
  unfold LazyChange.commit
  refine ensures_of_at fun m hm => ?_
  have hkeep : ∀ m', m' = m → J m' := fun _ h => h ▸ hm
  have hfailed : ∀ m', m' = m → E m' := fun _ h => h ▸ hJ.failed hm
  refine ensures_get_bind_at (ensures_lift_bind hfailed fun previous _ => ?_)
  refine ensures_get_bind_at (ensures_lift_bind hfailed fun displaced _ => ?_)
  refine Ensures.bind (happly.mono_pre hkeep) fun (total, delta) => ?_
  refine ensures_get_bind fun m' hm' => ?_
  have hkeep' : ∀ m, m = m' → J m := fun _ h => h ▸ hm'
  split
  · exact ensures_pure hkeep'
  · exact Ensures.bind ((hundo previous displaced).mono_pre hkeep') fun _ =>
      ensures_pure fun _ h => h

theorem Proposal.commit_ensures (hJ : Model.KeptOr J E) (p : Proposal V α) :
    Ensures J (p.commit : Attempt M (Commit α)) (fun _ => J) E := by
  cases p with
  | move m => exact Ensures.bind (Move.commit_ensures hJ m) fun _ => ensures_pure fun _ h => h
  | lazy c criterion => exact LazyChange.commit_ensures hJ c _

end

/-! ## Tables -/

open Model.Tables (assigned kept clash)

variable [Model.Tabular M] {m m' : M} {v : Nat} {x : V}

omit [Model M V α] [Model.Tabular M] in
theorem Model.Becomes.trans [Model.Tables M V] {m m' m'' : M} {a b : Table V}
    (h : Model.Becomes m a m') (h' : Model.Becomes m' b m'') : Model.Becomes m b m'' :=
  ⟨h'.assigned, h'.kept.trans h.kept, h'.clash.trans h.clash⟩

theorem Model.becomes_assign (h : Model.assign m v x = .ok m') :
    Model.Becomes m (assigned m') m' := by
  obtain ⟨-, out, -, hbecomes⟩ := Model.Tabular.assign_eq_ok h
  exact ⟨rfl, hbecomes.kept, hbecomes.clash⟩

theorem Model.becomes_unassign (h : Model.unassign m v = .ok m') :
    Model.Becomes m (assigned m') m' :=
  ⟨rfl, (Model.Tabular.unassign_eq_ok h).2.kept, (Model.Tabular.unassign_eq_ok h).2.clash⟩

/-- Assigning and unassigning change nothing but the assignment. -/
theorem Model.invariant_becomes (m₀ : M) :
    Model.Invariant fun m : M => Model.Becomes m₀ (assigned m) m where
  assign hm h := hm.trans (Model.becomes_assign h)
  unassign hm h := hm.trans (Model.becomes_unassign h)
  failed hm := hm
  spoiled hm := hm.trans (Model.Tabular.spoiled_becomes _)

theorem Model.Sound.of_becomes {a : Table V} (ha : a.ClashFree (clash m))
    (h : Model.Becomes m a m') : Model.Sound m' := by
  unfold Model.Sound
  rw [h.clash, h.assigned]
  exact ha

/-- Neither assigning nor unassigning makes a clash. -/
theorem Model.invariant_sound : Model.Invariant fun m : M => Model.Sound m where
  assign hm h := by
    obtain ⟨-, out, hout, hbecomes⟩ := Model.Tabular.assign_eq_ok h
    refine .of_becomes (Table.clashFree_place (fun _ _ _ _ => Model.Tabular.clash_comm) hm ?_)
      hbecomes
    exact fun i y hi hy hclash => (Model.Tabular.mem_conflicts hout i).2 ⟨hi, y, hy, hclash⟩
  unassign hm h := .of_becomes (hm.within (Table.within_set_none _ _))
    (Model.Tabular.unassign_eq_ok h).2
  failed hm := hm
  spoiled hm := .of_becomes (hm.within (Model.Tabular.within_spoiled _))
    (Model.Tabular.spoiled_becomes _)

/-- A value that clashes with nothing displaces nothing. -/
theorem Model.becomes_of_assign (h : Model.assign m v x = .ok m')
    (hfree : ∀ i y, i ≠ v → (assigned m)[i]? = some (some y) → ¬ clash m v x i y) :
    Model.Becomes m ((assigned m).set v (some x)) m' := by
  obtain ⟨-, out, hout, hbecomes⟩ := Model.Tabular.assign_eq_ok h
  cases out with
  | nil => exact hbecomes
  | cons i rest =>
    obtain ⟨hi, y, hy, hclash⟩ := (Model.Tabular.mem_conflicts hout i).1 List.mem_cons_self
    exact absurd hclash (hfree i y hi hy)

/-- The same if the model says that nothing is in conflict. -/
theorem Model.becomes_of_assign_of_conflicts (h : Model.assign m v x = .ok m')
    (hfree : Model.conflicts m v x = .ok []) :
    Model.Becomes m ((assigned m).set v (some x)) m' := by
  refine Model.becomes_of_assign h fun i y hi hy hclash => ?_
  cases (Model.Tabular.mem_conflicts hfree i).2 ⟨hi, y, hy, hclash⟩

/-! ## Swaps -/

/-- Both values are taken away, and each one is put in the other's place. If nothing else is in the
way there, nothing is displaced. -/
theorem SwapMove.becomes_of_steps {a b : Nat} {x y : V} {m₁ m₂ m₃ m₄ : M} (hab : a ≠ b)
    (hxy : ¬ clash m a y b x)
    (hfree : ∀ i z, i ≠ a → i ≠ b → (assigned m)[i]? = some (some z) →
      ¬ clash m a y i z ∧ ¬ clash m b x i z)
    (h₁ : Model.unassign m a = .ok m₁) (h₂ : Model.unassign m₁ b = .ok m₂)
    (h₃ : Model.assign m₂ a y = .ok m₃) (h₄ : Model.assign m₃ b x = .ok m₄) :
    Model.Becomes m (((assigned m).set a (some y)).set b (some x)) m₄ := by
  have hb₁ := (Model.Tabular.unassign_eq_ok h₁).2
  have hb₂ := hb₁.trans (Model.Tabular.unassign_eq_ok h₂).2
  have hb₃ := hb₂.trans <| Model.becomes_of_assign h₃ fun i z hi hz => by
    rw [hb₂.assigned, hb₁.assigned] at hz
    obtain ⟨hi', hz⟩ := Table.of_getElem?_set_none hz
    rw [hb₂.clash]
    exact (hfree i z hi hi' (Table.of_getElem?_set_none hz).2).1
  have hb₄ := hb₃.trans <| Model.becomes_of_assign h₄ fun i z hi hz => by
    rw [hb₃.assigned, hb₂.assigned, hb₁.assigned] at hz
    rw [hb₃.clash]
    by_cases hi' : i = a
    · subst hi'
      rw [Table.eq_of_getElem?_set_self hz]
      -- the exchanged values do not clash with each other
      exact fun h => hxy (Model.Tabular.clash_comm h)
    · rw [List.getElem?_set_ne fun h => hi' h.symm] at hz
      exact (hfree i z hi' hi (Table.of_getElem?_set_none (Table.of_getElem?_set_none hz).2).2).2
  have htable : ((assigned m).set a (some y)).set b (some x) =
      (assigned m₃).set b (some x) := by
    rw [hb₃.assigned, hb₂.assigned, hb₁.assigned, List.set_comm none (some y) (fun h => hab h.symm)]
    simp
  rw [htable]
  exact hb₄

/-- An evaluated swap exchanges the two values and nothing else. -/
theorem SwapMove.commit_becomes {s : SwapMove α}
    (hs : SwapMove.of? m s.first s.second = .ok (some s)) :
    Ensures (· = m) (s.commit : Attempt M Unit)
      (fun _ m' => ∃ x y, (assigned m)[s.first]? = some (some x) ∧
        (assigned m)[s.second]? = some (some y) ∧
        Model.Becomes m (((assigned m).set s.first (some y)).set s.second (some x)) m')
      (fun _ => True) := by
  obtain ⟨-, -, hne, ⟨x, hx⟩, ⟨y, hy⟩, hdelta⟩ := SwapMove.of?_eq_some hs
  rw [Model.Tabular.assignment_eq, fetch_eq_ok_iff] at hx hy
  obtain ⟨hxy, hfree⟩ := Model.Tabular.swapDelta_eq_some hdelta hne hx hy
  unfold SwapMove.commit
  refine ensures_get_bind_at ?_
  refine ensures_lift_bind (fun _ _ => trivial) fun a? ha => ?_
  refine ensures_lift_bind (fun _ _ => trivial) fun b? hb => ?_
  rw [Model.Tabular.assignment_eq, fetch_eq_ok_iff] at ha hb
  cases ha.symm.trans hx
  cases hb.symm.trans hy
  refine Ensures.bind (ensures_update_at trivial) fun _ => ensures_of_at fun m₁ h₁ => ?_
  refine Ensures.bind (ensures_update_at trivial) fun _ => ensures_of_at fun m₂ h₂ => ?_
  refine Ensures.bind (Model.ensures_put_at trivial) fun _ => ensures_of_at fun m₃ h₃ => ?_
  refine (Model.ensures_put_at trivial).mono_post fun _ m₄ h₄ => ⟨x, y, hx, hy, ?_⟩
  exact SwapMove.becomes_of_steps hne hxy hfree h₁ h₂ h₃ h₄

/-! ## Lazy changes -/

/-- The displaced values are those of the other variables in conflict with the change. -/
theorem LazyChange.mem_displaced {c : LazyChange V} {out : List Nat} {displaced : List (Nat × V)}
    (hout : Model.conflicts m c.var c.value = .ok out) (h : c.displaced m = .ok displaced) (i : Nat)
    (y : V) : (i, y) ∈ displaced ↔ i ∈ out ∧ i ≠ c.var ∧ (assigned m)[i]? = some (some y) := by
  obtain ⟨out', hout', h⟩ := bind_eq_ok_iff.1 h
  cases hout.symm.trans hout'
  obtain ⟨values, hvalues, h⟩ := bind_eq_ok_iff.1 h
  rw [← pure_eq_ok_iff.1 h, List.mem_filterMap]
  simp only [id, exists_eq_right, mem_of_mapM_eq_ok hvalues, List.mem_filter, decide_eq_true_eq]
  constructor
  · rintro ⟨j, ⟨hj, hne⟩, hvalue⟩
    obtain ⟨current, hcurrent, hvalue⟩ := bind_eq_ok_iff.1 hvalue
    obtain ⟨z, rfl, hz⟩ := Option.map_eq_some_iff.1 (pure_eq_ok_iff.1 hvalue)
    cases hz
    rw [Model.Tabular.assignment_eq, fetch_eq_ok_iff] at hcurrent
    exact ⟨hj, hne, hcurrent⟩
  · rintro ⟨hi, hne, hy⟩
    refine ⟨i, ⟨hi, hne⟩, ?_⟩
    rw [Model.Tabular.assignment_eq, fetch_eq_ok_iff.2 hy]
    rfl

/-- The assignment while displaced values are put back: the changed variable is without a value, the
other variables have their values or wait for them. -/
structure Returning (m : M) (v : Nat) (waiting : List (Nat × V)) (m' : M) : Prop where
  becomes : Model.Becomes m (assigned m') m'
  within : (assigned m').Within (assigned m)
  length_eq : (assigned m').length = (assigned m).length
  waits : ∀ i y, (i, y) ∈ waiting → i ≠ v ∧ (assigned m)[i]? = some (some y)
  back : ∀ i, i ≠ v → i ∉ waiting.map Prod.fst → (assigned m')[i]? = (assigned m)[i]?
  gone : (assigned m')[v]? = some none

/-- Putting a value back displaces nothing. -/
theorem Returning.becomes_of_assign {waiting : List (Nat × V)} {m' m'' : M} (hm : Model.Sound m)
    (h : Returning m v waiting m') {i : Nat} {y : V} (hy : (assigned m)[i]? = some (some y))
    (hassign : Model.assign m' i y = .ok m'') :
    Model.Becomes m ((assigned m').set i (some y)) m'' := by
  refine h.becomes.trans (Model.becomes_of_assign hassign fun j z hj hz => ?_)
  rw [h.becomes.clash]
  exact hm i j y z (fun h => hj h.symm) hy (h.within j z hz)

theorem Returning.step {i : Nat} {y : V} {waiting : List (Nat × V)} {m' m'' : M}
    (hm : Model.Sound m) (h : Returning m v ((i, y) :: waiting) m')
    (hassign : Model.assign m' i y = .ok m'') : Returning m v waiting m'' := by
  -- the value comes back to a variable that has none, and it clashed with nothing before the change
  obtain ⟨hne, hy⟩ := h.waits i y List.mem_cons_self
  have hbecomes := h.becomes_of_assign hm hy hassign
  refine ⟨?_, ?_, ?_, fun j z hz => h.waits j z (List.mem_cons_of_mem _ hz), ?_, ?_⟩
  · rw [hbecomes.assigned]
    exact hbecomes
  · rw [hbecomes.assigned]
    intro j z hz
    by_cases hj : j = i
    · subst hj
      rw [Table.eq_of_getElem?_set_self hz]
      exact hy
    · rw [List.getElem?_set_ne fun h => hj h.symm] at hz
      exact h.within j z hz
  · rw [hbecomes.assigned, List.length_set]
    exact h.length_eq
  · intro j hj hmem
    rw [hbecomes.assigned]
    by_cases hji : j = i
    · subst hji
      obtain ⟨hlt, -⟩ := List.getElem?_eq_some_iff.1 hy
      rw [List.getElem?_set_self (h.length_eq ▸ hlt), hy]
    · rw [List.getElem?_set_ne fun h => hji h.symm]
      exact h.back j hj (by simpa [hji] using hmem)
  · rw [hbecomes.assigned, List.getElem?_set_ne hne]
    exact h.gone

/-- When no value waits any more, the changed variable gets its value back as the last one. -/
theorem Returning.finish {m' m'' : M} (hm : Model.Sound m) (h : Returning m v [] m')
    (hx : (assigned m)[v]? = some (some x)) (hassign : Model.assign m' v x = .ok m'') :
    Model.Becomes m (assigned m) m'' := by
  have hbecomes := h.becomes_of_assign hm hx hassign
  -- every other variable has its value back, as none waits
  have hsame : (assigned m').set v (some x) = assigned m := by
    refine List.ext_getElem? fun i => ?_
    by_cases hi : i = v
    · subst hi
      obtain ⟨hlt, -⟩ := List.getElem?_eq_some_iff.1 hx
      rw [List.getElem?_set_self (h.length_eq ▸ hlt), hx]
    · rw [List.getElem?_set_ne fun h => hi h.symm]
      exact h.back i hi (by simp)
  rw [← hsame]
  exact hbecomes

/-- Without a value to give back the assignment is back already. -/
theorem Returning.finish_none {m' : M} (h : Returning m v [] m')
    (hx : (assigned m)[v]? = some none) : Model.Becomes m (assigned m) m' := by
  have hsame : assigned m' = assigned m := by
    refine List.ext_getElem? fun i => ?_
    by_cases hi : i = v
    · subst hi
      rw [h.gone, hx]
    · exact h.back i hi (by simp)
  rw [← hsame]
  exact h.becomes

/-- After the change is made and its variable has lost the value again, all displaced
values wait. -/
theorem LazyChange.returning {c : LazyChange V} {m₁ m₂ : M} {displaced : List (Nat × V)}
    (hdisplaced : c.displaced m = .ok displaced) (h₁ : Model.assign m c.var c.value = .ok m₁)
    (h₂ : Model.unassign m₁ c.var = .ok m₂) : Returning m c.var displaced m₂ := by
  obtain ⟨hlt, out, hout, hb₁⟩ := Model.Tabular.assign_eq_ok h₁
  have hb₂ := hb₁.trans (Model.Tabular.unassign_eq_ok h₂).2
  -- whatever the change put in is gone again; what it displaced is what was in conflict with it
  have hassigned : assigned m₂ = ((assigned m).evict out).set c.var none := by
    rw [hb₂.assigned, hb₁.assigned, List.set_set]
  have hmem := c.mem_displaced hout hdisplaced
  refine ⟨?_, ?_, ?_, fun i y hi => ((hmem i y).1 hi).2, ?_, ?_⟩
  · rw [hb₂.assigned]
    exact hb₂
  · rw [hassigned]
    exact fun i y hi => Table.within_evict _ out i y (Table.within_set_none _ _ i y hi)
  · rw [hassigned, List.length_set, Table.length_evict]
  · intro i hi hwaiting
    rw [hassigned, List.getElem?_set_ne fun h => hi h.symm, Table.getElem?_evict, if_neg]
    -- a variable that was displaced waits for its value
    intro hiout
    obtain ⟨-, y, hy, -⟩ := (Model.Tabular.mem_conflicts hout i).1 hiout
    exact hwaiting (List.mem_map.2 ⟨(i, y), (hmem i y).2 ⟨hiout, hi, hy⟩, rfl⟩)
  · rw [hassigned, List.getElem?_set_self (by rw [Table.length_evict]; exact hlt)]

variable [Scalar α]

/-- A lazy change that is taken back leaves the assignment as it was. An applied one places the
value. -/
theorem LazyChange.commit_becomes (hm : Model.Sound m) (c : LazyChange V)
    (accept : M → α → α → Bool) :
    Ensures (· = m) (c.commit accept)
      (fun r m' => match r with
        | .applied _ => Model.assign m c.var c.value = .ok m'
        | .rejected _ => Model.Becomes m (assigned m) m')
      (fun _ => True) := by
  unfold LazyChange.commit
  refine ensures_get_bind_at (ensures_lift_bind (fun _ _ => trivial) fun previous hprevious => ?_)
  refine ensures_get_bind_at (ensures_lift_bind (fun _ _ => trivial) fun displaced hdisplaced => ?_)
  refine Ensures.bind (Q := fun _ m' => Model.assign m c.var c.value = .ok m') ?_
    fun (total, delta) => ?_
  · unfold LazyChange.apply
    refine ensures_get_bind_at (ensures_lift_bind (fun _ _ => trivial) fun before _ => ?_)
    refine Ensures.bind (Model.ensures_put_at trivial) fun _ => ensures_of_at fun m' hm' => ?_
    refine ensures_get_bind_at (ensures_lift_bind (fun _ _ => trivial) fun after _ => ?_)
    exact ensures_pure fun _ h => h ▸ hm'
  -- the change is made; from here on it depends on the answer of the predicate
  refine ensures_of_at fun m₁ hm₁ => ensures_get_bind_at ?_
  split
  · exact ensures_pure fun _ h => h ▸ hm₁
  refine Ensures.bind (Q := fun _ m' => Model.Becomes m (assigned m) m') ?_ fun _ =>
    ensures_pure fun _ h => h
  unfold LazyChange.undo
  refine Ensures.bind (ensures_update_at trivial) fun _ => ?_
  -- the invariant of the loop is that the values not yet put back wait for their variables
  refine Ensures.bind (Q := fun _ m' => Returning m c.var [] m')
    (Ensures.mono_pre (ensures_forIn_rest ?_ displaced) fun m₂ h₂ =>
      c.returning hdisplaced hm₁ h₂) fun _ => ?_
  · rintro ⟨i, y⟩ waiting
    refine ensures_of_at fun m' hm' => Ensures.bind (Model.ensures_put_at trivial) fun _ => ?_
    exact ensures_pure fun m'' hassign => ⟨rfl, hm'.step hm hassign⟩
  refine ensures_of_at fun m' hm' => ?_
  -- the variable itself comes last, if it had a value
  rw [Model.Tabular.assignment_eq, fetch_eq_ok_iff] at hprevious
  cases previous with
  | none => exact ensures_pure fun _ h => h ▸ hm'.finish_none hprevious
  | some x =>
    exact (Model.ensures_put_at trivial).mono_post fun _ _ hassign => hm'.finish hm hprevious hassign

/-! ## Complete assignments -/

omit [Scalar α] in
/-- Construction has nothing to offer for a complete assignment. -/
theorem Construction.Offers.unassignedCount_ne_zero {p : Proposal V α}
    (hp : Construction.Offers m p) : Model.unassignedCount m ≠ 0 := by
  obtain ⟨hopen, -, -, -⟩ := hp
  rw [Model.Tabular.assignment_eq, fetch_eq_ok_iff] at hopen
  rw [Model.Tabular.unassignedCount_eq]
  exact Table.openCount_ne_zero hopen

omit [Scalar α] in
theorem Model.unassignedCount_of_becomes_set (hfree : Model.conflicts m v x = .ok []) {y : V}
    (hy : Model.assignment m v = .ok (some y)) (h : Model.assign m v x = .ok m') :
    Model.unassignedCount m' = Model.unassignedCount m := by
  rw [Model.Tabular.assignment_eq, fetch_eq_ok_iff] at hy
  rw [Model.Tabular.unassignedCount_eq, Model.Tabular.unassignedCount_eq,
    (Model.becomes_of_assign_of_conflicts h hfree).assigned, Table.openCount_set_some hy]

/-- A candidate of a basic generator leaves as many variables without a value. -/
theorem Proposal.commit_unassignedCount (hm : Model.Sound m) {p : Proposal V α}
    (hp : p.From Candidate.Fits m) :
    Ensures (· = m) (p.commit : Attempt M (Commit α))
      (fun _ m' => Model.unassignedCount m' = Model.unassignedCount m) (fun _ => True) := by
  cases p with
  | move mv =>
    refine Ensures.bind (Q := fun _ m' => Model.unassignedCount m' = Model.unassignedCount m) ?_
      fun _ => ensures_pure fun _ h => h
    cases hp with
    | change hassigned hvalues hvalue hfree hdelta =>
      exact (Model.ensures_put_at trivial).mono_post fun _ m' h =>
        Model.unassignedCount_of_becomes_set hfree hassigned h
    | swap hswap =>
      refine (SwapMove.commit_becomes hswap).mono_post fun _ m' ⟨x, y, hx, hy, hbecomes⟩ => ?_
      obtain ⟨-, -, hne, -, -, -⟩ := SwapMove.of?_eq_some hswap
      rw [Model.Tabular.unassignedCount_eq, Model.Tabular.unassignedCount_eq, hbecomes.assigned,
        Table.openCount_set_some (by rw [List.getElem?_set_ne hne, hy]),
        Table.openCount_set_some hx]
  | lazy c criterion =>
    refine (LazyChange.commit_becomes hm c _).mono_post fun r m' h => ?_
    cases hp with
    | lazy hassigned hvalues hvalue hfree =>
      cases r with
      | applied delta => exact Model.unassignedCount_of_becomes_set hfree hassigned h
      | rejected delta =>
        rw [Model.Tabular.unassignedCount_eq, Model.Tabular.unassignedCount_eq, h.assigned]

/-- What a strategy proposes on a complete assignment leaves it complete. -/
theorem Proposal.commit_complete (hm : Model.Sound m) {p : Proposal V α}
    (hp : p.Supplied Candidate.Fits m) (hcomplete : Model.unassignedCount m = 0) :
    Ensures (· = m) (p.commit : Attempt M (Commit α))
      (fun _ m' => Model.unassignedCount m' = 0) (fun _ => True) := by
  rcases hp with hp | hp
  · exact (Proposal.commit_unassignedCount hm hp).mono_post fun _ _ h => h.trans hcomplete
  · exact absurd hcomplete hp.unassignedCount_ne_zero

/-- What is taken back leaves the assignment as it was. -/
theorem Proposal.commit_rejected (hm : Model.Sound m) (p : Proposal V α) :
    Ensures (· = m) (p.commit : Attempt M (Commit α))
      (fun r m' => ∀ delta, r = .rejected delta → Model.Becomes m (assigned m) m')
      (fun _ => True) := by
  cases p with
  | move mv =>
    refine Ensures.bind (Q := fun _ _ => True) (ensures_of (fun _ _ _ _ _ => trivial)
      fun _ _ _ _ _ => trivial) fun _ => ?_
    exact ensures_pure fun _ _ _ h => by cases h
  | lazy c criterion =>
    refine (LazyChange.commit_becomes hm c _).mono_post fun r m' h delta hr => ?_
    subst hr
    exact h

end LocalSearch
